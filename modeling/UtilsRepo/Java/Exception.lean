/-!
# Java exceptions

What the code under verification can observe of a thrown exception: its class and its message.
-/

namespace UtilsRepo

/-- The exception classes the modelled code throws, catches or lets through. -/
inductive ExceptionClass where
  | illegalArgumentException
  | nullPointerException
  | dataAccessException
  | ioException
  | fileNotFoundException
  | alreadyClosedException
  | classCastException
  | messageConversionException
  | jsonProcessingException
  | invalidKeySpecException
  | jwtCreationException
  | signatureGenerationException
  | jwtDecodeException
  | algorithmMismatchException
  | signatureVerificationException
  | tokenExpiredException
  | invalidClaimException
  | badCredentialsException
  | lockedException
  | disabledException
  | accountExpiredException
  deriving DecidableEq, Repr

/-- A thrown exception; `message` is what `getMessage()` answers, `null` included. -/
structure JavaException where
  exceptionClass : ExceptionClass
  message : Option String
  deriving DecidableEq, Repr

end UtilsRepo
