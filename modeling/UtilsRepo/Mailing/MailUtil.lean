import Mathlib.Data.Int.Notation
import UtilsRepo.Lib.Fallible

/-!
# `MailUtil`

Building a mail from its settings and sending it over JavaMail.  Every call on JavaMail is recorded with
its outcome, and any of them may fail.
-/

namespace UtilsRepo.Mailing

/-! ## 1. Settings -/

inductive NodeType where
  | text
  | mixed
  deriving DecidableEq, Repr

/-- The content of a mail that has more than text; `none` is `null`. -/
structure MultiContent where
  type : Option NodeType
  body : Option String
  attachments : Option (List (Option String))
  imgUrl : Option String

structure Mail where
  subject : Option String
  textContent : Option String
  multiContent : Option MultiContent
  sentDate : Option ℤ

-- `getSentDate()`
def Mail.getSentDate (mail : Mail) (now : ℤ) : ℤ :=
  match mail.sentDate with
  | none => now
  | some sentDate => sentDate

structure Account where
  fromAddress : Option String
  nickName : Option String
  addressTo : Option (List (Option String))
  cc : Option (List (Option String))
  bcc : Option (List (Option String))
  password : Option String

/-- `Character.isWhitespace` -/
def isWhitespace (c : Char) : Bool :=
  let n := c.toNat
  (9 ≤ n && n ≤ 13) || (28 ≤ n && n ≤ 32) || n == 0x1680 || (0x2000 ≤ n && n ≤ 0x200A && n != 0x2007) ||
    n == 0x2028 || n == 0x2029 || n == 0x205F || n == 0x3000

-- `String.isBlank()`
def isBlank (s : String) : Bool := s.toList.all isWhitespace

/-! ## 2. JavaMail -/

/-- What JavaMail makes of texts. -/
structure JavaMail where
  Address : Type
  /-- `new InternetAddress(text)`; `none` where it throws an `AddressException`. -/
  parse : String → Option Address
  /-- `new InternetAddress(address, personal, "UTF-8")` -/
  personal : String → String → Address
  /-- `MimeUtility.encodeText` of the name of the file at a path. -/
  encodedName : String → String

inductive Part where
  | html (content : String)
  /-- A `related` multipart of a text and an image. -/
  | related (content image contentId : String)
  | file (path fileName : String)
  deriving DecidableEq

inductive Content where
  | text (content : Option String)
  | multipart (parts : List Part)
  deriving DecidableEq

structure MimeMessage (j : JavaMail) where
  sender : j.Address
  addressTo : List j.Address
  cc : List j.Address
  bcc : List j.Address
  subject : Option String
  content : Content
  sentDate : ℤ

def MimeMessage.getAllRecipients {j : JavaMail} (message : MimeMessage j) : List j.Address :=
  message.addressTo ++ message.cc ++ message.bcc

/-- The calls that put a message together; the last one writes its content. -/
inductive Preparation where
  | setFrom | setTo | setCc | setBcc | setPersonal | setSubject | setContent | setSentDate
  | setDataHandler | setContentID | setSubType | addBodyPart | attachFile | encodeText | setFileName
  | saveChanges (content : Content)
  deriving DecidableEq

inductive Call (j : JavaMail) where
  | prepare (preparation : Preparation)
  | getTransport
  | connect (user password : Option String)
  | sendMessage (message : MimeMessage j) (recipients : List j.Address)
  | close

inductive Fault where
  | messagingException
  | addressException
  | ioException
  | unsupportedEncodingException
  | nullPointerException
  | runtimeException
  deriving DecidableEq, Repr

-- an `AddressException` is a `MessagingException`
def Fault.isMessagingException : Fault → Bool
  | messagingException | addressException => true
  | _ => false

/-- The calls made so far, each with what it threw, and whether `transport` is set. -/
structure World (j : JavaMail) where
  journal : List (Call j × Option Fault)
  transport : Bool

def World.log {j : JavaMail} (w : World j) (call : Call j) (outcome : Option Fault) : World j :=
  { w with journal := w.journal ++ [(call, outcome)] }

/-- Which call fails, and how, may depend on all the calls before. -/
abbrev Failures (j : JavaMail) := List (Call j × Option Fault) → Call j → Option Fault

section Sending

variable {j : JavaMail} (fails : Failures j)

def perform (call : Call j) : Fallible Fault (World j) Unit :=
  Fallible.ofStep fun w =>
    match fails w.journal call with
    | none => (.ok (), w.log call none)
    | some e => (.error e, w.log call (some e))

theorem eval_perform_ok {fails : Failures j} {call : Call j} {w : World j}
    (h : fails w.journal call = none) : (perform fails call).eval w = (.ok (), w.log call none) := by
  rw [perform, Fallible.eval_ofStep, h]

theorem eval_perform_error {fails : Failures j} {call : Call j} {w : World j} {e : Fault}
    (h : fails w.journal call = some e) :
    (perform fails call).eval w = (.error e, w.log call (some e)) := by
  rw [perform, Fallible.eval_ofStep, h]

-- `transport = session.getTransport()`
def getTransport : Fallible Fault (World j) Unit := do
  perform fails .getTransport
  Fallible.ofStep fun w => (.ok (), { w with transport := true })

/-! ## 3. Building a mail -/

-- `new InternetAddress(text)`
def newInternetAddress (text : Option String) : Fallible Fault (World j) j.Address :=
  match text with
  | none => throw .nullPointerException
  | some text =>
      match j.parse text with
      | some address => pure address
      | none => throw .addressException

/-- The addresses of a list, without those that cannot be parsed. -/
def internetAddresses : List (Option String) → Fallible Fault (World j) (List j.Address)
  | [] => pure []
  | none :: _ => throw .nullPointerException
  | some text :: rest => do
      let addresses ← internetAddresses rest
      return (j.parse text).toList ++ addresses

def setRecipients (preparation : Preparation) (texts : Option (List (Option String))) :
    Fallible Fault (World j) (List j.Address) :=
  match texts with
  | none | some [] => pure []
  | some texts => do
      let addresses ← internetAddresses texts
      perform fails (.prepare preparation)
      return addresses

-- the sender, with a nickname if there is one
def setSender (account : Account) : Fallible Fault (World j) j.Address :=
  match account.nickName with
  | none => newInternetAddress account.fromAddress
  | some nickName =>
      if isBlank nickName then newInternetAddress account.fromAddress
      else do
        perform fails (.prepare .setPersonal)
        -- the address was parsed before, so it is there
        return j.personal (account.fromAddress.getD "") nickName

-- the loop over the attachments
def attach : List (Option String) → Fallible Fault (World j) (List Part)
  | [] => pure []
  | none :: _ => throw .nullPointerException
  | some path :: rest => do
      perform fails (.prepare .attachFile)
      perform fails (.prepare .encodeText)
      perform fails (.prepare .setFileName)
      perform fails (.prepare .addBodyPart)
      let parts ← attach rest
      return .file path (j.encodedName path) :: parts

-- `switch (node.getType())`; `contentId` is `UUID.randomUUID().toString()`
def createPart (contentId : String) (node : MultiContent) : Fallible Fault (World j) Part :=
  match node.type with
  | none => throw .nullPointerException
  | some .text =>
      match node.body with
      | none => throw .nullPointerException
      | some body => do
          perform fails (.prepare .setContent)
          return .html ("<p>" ++ body ++ "</p>")
  | some .mixed =>
      match node.imgUrl with
      | none => throw .nullPointerException
      | some imgUrl => do
          perform fails (.prepare .setDataHandler)
          perform fails (.prepare .setContentID)
          perform fails (.prepare .setContent)
          perform fails (.prepare .addBodyPart)
          perform fails (.prepare .addBodyPart)
          perform fails (.prepare .setSubType)
          perform fails (.prepare .setContent)
          -- a body that is `null` is written as such
          return .related
            ("<p>" ++ node.body.getD "null" ++ "</p><img src='cid:" ++ contentId ++ "'/>") imgUrl
            ("<" ++ contentId ++ ">")

-- `createBody()`
def createBody (contentId : String) (node : MultiContent) : Fallible Fault (World j) (List Part) := do
  let part ← createPart fails contentId node
  let attachments ← attach fails (node.attachments.getD [])
  perform fails (.prepare .addBodyPart)
  return attachments ++ [part]

def createContent (contentId : String) (mail : Mail) : Fallible Fault (World j) Content :=
  match mail.multiContent with
  | none => do
      perform fails (.prepare .setContent)
      return .text mail.textContent
  | some node => do
      let parts ← createBody fails contentId node
      perform fails (.prepare .setContent)
      return .multipart parts

-- `createMail(Session)`
def createMail (now : ℤ) (contentId : String) (account : Account) (mail : Mail) :
    Fallible Fault (World j) (MimeMessage j) := do
  let _ ← newInternetAddress (j := j) account.fromAddress
  perform fails (.prepare .setFrom)
  let addressTo ← setRecipients fails .setTo account.addressTo
  let cc ← setRecipients fails .setCc account.cc
  let bcc ← setRecipients fails .setBcc account.bcc
  let sender ← setSender fails account
  perform fails (.prepare .setFrom)
  perform fails (.prepare .setSubject)
  let content ← createContent fails contentId mail
  perform fails (.prepare .setSentDate)
  perform fails (.prepare (.saveChanges content))
  return ⟨sender, addressTo, cc, bcc, mail.subject, content, mail.getSentDate now⟩

/-! ## 4. Sending it -/

/-- What `send` throws: its own exception, or what comes out of `finally`. -/
inductive SendException where
  | mailUtilException (message : String) (cause : Option Fault)
  | uncaught (e : Fault)
  deriving DecidableEq

-- around everything `send` tries
def failed (e : Fault) : SendException := .mailUtilException "邮件发送异常" (some e)

-- around the closing in `finally`, where only a `MessagingException` is caught
def closeFailed (e : Fault) : SendException :=
  if e.isMessagingException then .mailUtilException "连接关闭异常" (some e) else .uncaught e

structure MailUtil where
  properties : Option (List (String × String))
  account : Option Account
  mail : Option Mail

-- `MailUtil(Account, Mail, String)`
def MailUtil.new (account : Option Account) (mail : Option Mail) (mailHost : Option String) :
    Except Fault MailUtil :=
  match mailHost with
  -- `Properties` take no `null`
  | none => .error .nullPointerException
  | some mailHost => .ok {
      properties := some [("mail.smtp.auth", "true"), ("mail.transport.protocol", "smtp"),
        ("mail.smtp.host", mailHost)]
      account := account
      mail := mail }

-- what `send` tries
def deliver (now : ℤ) (contentId : String) (account : Account) (mail : Mail) :
    Fallible Fault (World j) Unit := do
  let message ← createMail fails now contentId account mail
  getTransport fails
  perform fails (.connect account.fromAddress account.password)
  perform fails (.sendMessage message message.getAllRecipients)
  perform fails .close

-- what `send` does in `finally`
def closeTransport : Fallible SendException (World j) Unit :=
  Fallible.ofStep fun w =>
    if w.transport then
      (Fallible.mapError closeFailed (perform fails .close)).eval w
    else (.ok (), w)

-- `send()`; the clock and the random number are read at most once
def MailUtil.send (util : MailUtil) (now : ℤ) (contentId : String) :
    Fallible SendException (World j) Unit :=
  match util.properties, util.account, util.mail with
  | none, _, _ => throw (.mailUtilException "必要信息未设置" none)
  | some _, none, _ => throw (.mailUtilException "邮箱信息未设置" none)
  | some _, some _, none => throw (.mailUtilException "邮件信息未设置" none)
  | some _, some account, some mail => do
      -- `Transport transport = null`
      Fallible.ofStep fun w => (.ok (), { w with transport := false })
      Fallible.withFinalizer
        (Fallible.mapError failed (deliver fails now contentId account mail))
        (closeTransport fails)

end Sending

end UtilsRepo.Mailing
