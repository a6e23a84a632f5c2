import Mathlib.Data.List.ReduceOption
import UtilsRepo.Jwt.JWTVerifier
import UtilsRepo.Lib.Fallible

/-!
# Users, authorities and authentications

The entities of the authentication server, and how its object mapper writes a user record as JSON
and reads it back.
-/

namespace UtilsRepo.Auth

open Jwt (asText)

/-! ## 1. Entities -/

/-- `Character.isWhitespace`. -/
def isWhitespace (c : Char) : Bool :=
  let n := c.toNat
  (9 ≤ n ∧ n ≤ 13) ∨ (28 ≤ n ∧ n ≤ 32) ∨ n = 0x1680 ∨ (0x2000 ≤ n ∧ n ≤ 0x200A ∧ n ≠ 0x2007) ∨
    n = 0x2028 ∨ n = 0x2029 ∨ n = 0x205F ∨ n = 0x3000

/-- `StringUtils.hasText`. -/
def hasText (s : String) : Bool := s.toList.any fun c => !isWhitespace c

/-- An authority; the constructor refuses a blank one. -/
structure JwtGrantedAuthority where
  authority : String
  hasText_authority : hasText authority = true
  deriving DecidableEq

def JwtGrantedAuthority.new (authority : Option String) :
    Except JavaException JwtGrantedAuthority :=
  match authority with
  | none => .error ⟨.illegalArgumentException,
      some "A granted authority textual representation is required"⟩
  | some authority =>
      if h : hasText authority = true then .ok ⟨authority, h⟩
      else .error ⟨.illegalArgumentException,
        some "A granted authority textual representation is required"⟩

theorem JwtGrantedAuthority.new_authority (a : JwtGrantedAuthority) :
    JwtGrantedAuthority.new (some a.authority) = .ok a := by
  rw [JwtGrantedAuthority.new, dif_pos a.hasText_authority]

structure JwtUserDetail where
  username : Option String
  password : Option String
  authorities : Option (List (Option JwtGrantedAuthority))
  accountNonExpired : Bool
  accountNonLocked : Bool
  credentialsNonExpired : Bool
  enabled : Bool
  deriving DecidableEq

/-- `JwtUserDetail(username, password, authorities)`. -/
def JwtUserDetail.new (username password : Option String)
    (authorities : Option (List (Option JwtGrantedAuthority))) : JwtUserDetail :=
  ⟨username, password, authorities, true, true, true, true⟩

/-- `JwtAccessToken`; the principal is a user record after a login and a name in a request. -/
structure JwtAccessToken (π : Type) where
  principal : π
  credentials : Option String
  authorities : List JwtGrantedAuthority
  authenticated : Bool
  deriving DecidableEq

/-- `JwtAccessToken(principal, credentials, authorities)`: no authorities for `null`, and no `null`
among them. -/
def JwtAccessToken.new {π : Type} (principal : π) (credentials : Option String)
    (authorities : Option (List (Option JwtGrantedAuthority))) :
    Except JavaException (JwtAccessToken π) :=
  if none ∈ authorities.getD [] then
    .error ⟨.illegalArgumentException,
      some "Authorities collection cannot contain any null elements"⟩
  else .ok ⟨principal, credentials, (authorities.getD []).reduceOption, true⟩

theorem map_some_reduceOption {α : Type} {l : List (Option α)} (h : none ∉ l) :
    l.reduceOption.map some = l := by
  induction l with
  | nil => rfl
  | cons a l ih =>
    rw [List.mem_cons, not_or] at h
    cases a with
    | none => exact absurd rfl h.1
    | some a => rw [List.reduceOption_cons_of_some, List.map_cons, ih h.2]

/-- What a new authentication consists of. -/
theorem JwtAccessToken.new_ok {π : Type} {principal : π} {credentials : Option String}
    {authorities : Option (List (Option JwtGrantedAuthority))} {token : JwtAccessToken π}
    (h : JwtAccessToken.new principal credentials authorities = .ok token) :
    token.principal = principal ∧ token.authorities.map some = authorities.getD [] := by
  unfold JwtAccessToken.new at h
  split_ifs at h with hnull
  cases h
  exact ⟨rfl, map_some_reduceOption hnull⟩

/-! ## 2. Writing a user record -/

/-- Properties that are `null` are left out. -/
def optionalField {α : Type} (name : String) (toJson : α → Json) : Option α → List (String × Json)
  | none => []
  | some a => [(name, toJson a)]

def JwtGrantedAuthority.toJson (a : JwtGrantedAuthority) : Json :=
  .obj [("authority", .str a.authority)]

def authoritiesToJson (authorities : List (Option JwtGrantedAuthority)) : Json :=
  .arr (authorities.map (JavaObject.orNull JwtGrantedAuthority.toJson))

namespace JwtUserDetail

def fields (d : JwtUserDetail) : List (String × Json) :=
  optionalField "username" .str d.username ++ optionalField "password" .str d.password ++
    optionalField "authorities" authoritiesToJson d.authorities ++
    [("accountNonExpired", .bool d.accountNonExpired),
      ("accountNonLocked", .bool d.accountNonLocked),
      ("credentialsNonExpired", .bool d.credentialsNonExpired), ("enabled", .bool d.enabled)]

def toJson (d : JwtUserDetail) : Json := .obj d.fields

end JwtUserDetail

/-- `ObjectMapper.writeValueAsString` of a user record. -/
def writeValueAsString (p : Platform) (d : JwtUserDetail) : String := p.writeJson d.toJson

/-! ## 3. Reading a user record -/

/-- Jackson's answer to JSON that does not fit; its text, which names the place, is not looked
at. -/
def jsonMappingException : JavaException := ⟨.jsonProcessingException, none⟩

/-- A `String` property; other scalars are read by their text. -/
def readText (p : Platform) : Option Json → Except JavaException (Option String)
  | none | some .null => .ok none
  | some (.arr _) | some (.obj _) => .error jsonMappingException
  | some j => .ok (some (asText p j))

/-- A `boolean` property; the field keeps what the creator gave it when the property is missing. -/
def readBoolean (default : Bool) : Option Json → Except JavaException Bool
  | none => .ok default
  | some .null => .ok false
  | some (.bool b) => .ok b
  | some (.int n) => .ok (n ≠ 0)
  | some (.str s) =>
      let text := String.ofList (trim s.toList)
      if text ∈ ["true", "True", "TRUE"] then .ok true
      else if text ∈ ["false", "False", "FALSE", "null", ""] then .ok false
      else .error jsonMappingException
  | some _ => .error jsonMappingException

/-- What the constructor throws is wrapped. -/
def readAuthority (p : Platform) : Json → Except JavaException (Option JwtGrantedAuthority)
  | .null => .ok none
  | .obj fields => do
      let authority ← readText p (fields.lookup "authority")
      match JwtGrantedAuthority.new authority with
      | .ok a => return some a
      | .error _ => throw jsonMappingException
  | _ => .error jsonMappingException

def readAuthorities (p : Platform) :
    Option Json → Except JavaException (Option (List (Option JwtGrantedAuthority)))
  | none | some .null => .ok none
  | some (.arr elements) => some <$> elements.mapM (readAuthority p)
  | some _ => .error jsonMappingException

/-- The JSON text `null` is read as `null`; unknown properties are ignored.  Behind the creator
the mapper sets the private final fields that have a getter (`INFER_PROPERTY_MUTATORS` and
`ALLOW_FINAL_FIELDS_AS_MUTATORS`, both on by default). -/
def readUserDetail (p : Platform) : Json → Except JavaException (Option JwtUserDetail)
  | .null => .ok none
  | .obj fields => do
      let username ← readText p (fields.lookup "username")
      let password ← readText p (fields.lookup "password")
      let authorities ← readAuthorities p (fields.lookup "authorities")
      let created := JwtUserDetail.new username password authorities
      return some { created with
        accountNonExpired :=
          ← readBoolean created.accountNonExpired (fields.lookup "accountNonExpired")
        accountNonLocked :=
          ← readBoolean created.accountNonLocked (fields.lookup "accountNonLocked")
        credentialsNonExpired :=
          ← readBoolean created.credentialsNonExpired (fields.lookup "credentialsNonExpired")
        enabled := ← readBoolean created.enabled (fields.lookup "enabled") }
  | _ => .error jsonMappingException

/-- `ObjectMapper.readValue(content, JwtUserDetail.class)`. -/
def readValue (p : Platform) (content : Option String) :
    Except JavaException (Option JwtUserDetail) :=
  match content with
  | none => .error ⟨.illegalArgumentException, some "argument \"content\" is null"⟩
  | some content =>
      match p.readJson content with
      | some j => readUserDetail p j
      | none => .error jsonMappingException

/-! ## 4. A record that was written is read back -/

theorem readAuthority_toJson (p : Platform) (a : Option JwtGrantedAuthority) :
    readAuthority p (JavaObject.orNull JwtGrantedAuthority.toJson a) = .ok a := by
  cases a with
  | none => rfl
  | some a =>
    change (match JwtGrantedAuthority.new (some a.authority) with
      | .ok a => (pure (some a) : Except JavaException _)
      | .error _ => throw jsonMappingException) = _
    rw [a.new_authority]
    rfl

theorem mapM_readAuthority (p : Platform) (authorities : List (Option JwtGrantedAuthority)) :
    (authorities.map (JavaObject.orNull JwtGrantedAuthority.toJson)).mapM (readAuthority p) =
      .ok authorities := by
  induction authorities with
  | nil => rfl
  | cons a authorities ih =>
    rw [List.map_cons, List.mapM_cons, readAuthority_toJson, ih]
    rfl

theorem readAuthorities_map (p : Platform)
    (authorities : Option (List (Option JwtGrantedAuthority))) :
    readAuthorities p (authorities.map authoritiesToJson) = .ok authorities := by
  cases authorities with
  | none => rfl
  | some authorities =>
    rw [Option.map_some, authoritiesToJson, readAuthorities, mapM_readAuthority]
    rfl

theorem readText_map (p : Platform) (s : Option String) : readText p (s.map .str) = .ok s := by
  cases s <;> rfl

namespace JwtUserDetail

theorem toJson_distinctKeys (d : JwtUserDetail) : d.toJson.DistinctKeys := by
  have hauthority : ∀ a : Option JwtGrantedAuthority,
      (JavaObject.orNull JwtGrantedAuthority.toJson a).DistinctKeys := by
    rintro (_ | a)
    · exact True.intro
    · exact ⟨List.nodup_singleton _, True.intro, True.intro⟩
  have hauthorities : ∀ as, (authoritiesToJson as).DistinctKeys := by
    intro as
    apply Json.distinctElements_iff.mpr
    intro j hj
    obtain ⟨a, -, rfl⟩ := List.mem_map.mp hj
    exact hauthority a
  obtain ⟨username, password, authorities, _, _, _, _⟩ := d
  -- three properties may be missing, which leaves eight lists of names
  cases username <;> cases password <;> cases authorities <;>
    simp [toJson, fields, optionalField, Json.DistinctKeys, Json.DistinctFields, hauthorities]

theorem lookup_fields (d : JwtUserDetail) :
    d.fields.lookup "username" = d.username.map .str ∧
      d.fields.lookup "password" = d.password.map .str ∧
      d.fields.lookup "authorities" = d.authorities.map authoritiesToJson ∧
      d.fields.lookup "accountNonExpired" = some (.bool d.accountNonExpired) ∧
      d.fields.lookup "accountNonLocked" = some (.bool d.accountNonLocked) ∧
      d.fields.lookup "credentialsNonExpired" = some (.bool d.credentialsNonExpired) ∧
      d.fields.lookup "enabled" = some (.bool d.enabled) := by
  obtain ⟨username, password, authorities, _, _, _, _⟩ := d
  cases username <;> cases password <;> cases authorities <;>
    exact ⟨rfl, rfl, rfl, rfl, rfl, rfl, rfl⟩

end JwtUserDetail

theorem readUserDetail_toJson (p : Platform) (d : JwtUserDetail) :
    readUserDetail p d.toJson = .ok (some d) := by
  obtain ⟨h₁, h₂, h₃, h₄, h₅, h₆, h₇⟩ := d.lookup_fields
  rw [JwtUserDetail.toJson, readUserDetail, h₁, h₂, h₃, h₄, h₅, h₆, h₇, readText_map,
    readText_map, readAuthorities_map]
  rfl

/-- Jackson reads back the record it wrote. -/
theorem readValue_writeValueAsString (p : Platform) (d : JwtUserDetail) :
    readValue p (some (writeValueAsString p d)) = .ok (some d) := by
  rw [readValue, writeValueAsString, p.readJson_writeJson _ d.toJson_distinctKeys]
  exact readUserDetail_toJson p d

/-- Two records agree in everything but the password. -/
structure SameRecord (d d' : JwtUserDetail) : Prop where
  username : d'.username = d.username
  authorities : d'.authorities = d.authorities
  accountNonExpired : d'.accountNonExpired = d.accountNonExpired
  accountNonLocked : d'.accountNonLocked = d.accountNonLocked
  credentialsNonExpired : d'.credentialsNonExpired = d.credentialsNonExpired
  enabled : d'.enabled = d.enabled

def Survives (p : Platform) (d : JwtUserDetail) : Prop :=
  ∃ d', readValue p (some (writeValueAsString p d)) = .ok (some d') ∧ SameRecord d d'

/-- A user record survives its JSON encoding, with or without a password: the four flags, which the
creator does not take, are set behind it. -/
theorem survives (p : Platform) (d : JwtUserDetail) : Survives p d :=
  ⟨d, readValue_writeValueAsString p d, rfl, rfl, rfl, rfl, rfl, rfl⟩

/-- A user record is written as an object. -/
theorem head_writeValueAsString (p : Platform) (d : JwtUserDetail) :
    (writeValueAsString p d).toList.head? = some '{' := by
  obtain ⟨text, h⟩ := p.writeJson_obj d.fields
  rw [writeValueAsString, JwtUserDetail.toJson, h]
  rfl

end UtilsRepo.Auth
