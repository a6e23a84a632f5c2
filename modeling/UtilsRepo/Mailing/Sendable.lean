import Mathlib.Data.List.ReduceOption
import UtilsRepo.Mailing.Sessions

/-!
# Which mails can be sent

With a JavaMail that refuses only what it must, the settings and the files they name decide whether
`send` returns.  An address that cannot be parsed is left out; a `null` in its place stops the mail.
-/

namespace UtilsRepo.Mailing

open Fallible

/-! ## 1. The settings -/

/-- A node of text needs a body, a node with an image only the image. -/
structure MultiContent.Complete (node : MultiContent) : Prop where
  part : (node.type = some .text ∧ node.body ≠ none) ∨ (node.type = some .mixed ∧ node.imgUrl ≠ none)
  attachments : none ∉ node.attachments.getD []

/-- Without a node the text is the content, and one that is `null` cannot be written. -/
structure Mail.Complete (mail : Mail) : Prop where
  text : mail.multiContent = none → mail.textContent ≠ none
  node : ∀ node, mail.multiContent = some node → node.Complete

/-- The files of a node: its attachments, and the image of one that is mixed. -/
def MultiContent.files (node : MultiContent) : List String :=
  (node.attachments.getD []).reduceOption ++
    match node.type with
    | some .mixed => node.imgUrl.toList
    | _ => []

def Mail.files (mail : Mail) : List String :=
  mail.multiContent.elim [] MultiContent.files

structure Sendable (j : JavaMail) (readable : String → Prop) (account : Account) (mail : Mail) :
    Prop where
  sender : ∃ text, account.fromAddress = some text ∧ j.parse text ≠ none
  password : account.password ≠ none
  addressTo : none ∉ account.addressTo.getD []
  cc : none ∉ account.cc.getD []
  bcc : none ∉ account.bcc.getD []
  reached : parsable j account.addressTo ++ parsable j account.cc ++ parsable j account.bcc ≠ []
  content : mail.Complete
  files : ∀ path ∈ mail.files, readable path

-- the file that is read when a part is written
def Part.files : Part → List String
  | .html _ => []
  | .related _ image _ => [image]
  | .file path _ => [path]

def Content.files : Content → List String
  | .text _ => []
  | .multipart parts => parts.flatMap Part.files

/-- JavaMail with a server that takes every user with a password and every mail with recipients whose
files can be read. -/
structure Reliable {j : JavaMail} (readable : String → Prop) (fails : Failures j) : Prop where
  prepare : ∀ journal s, fails journal (.prepare s) = none ↔ s ≠ .saveChanges (.text none)
  getTransport : ∀ journal, fails journal .getTransport = none
  connect : ∀ journal user password, fails journal (.connect user password) = none ↔
    user ≠ none ∧ password ≠ none
  sendMessage : ∀ journal message recipients,
    fails journal (.sendMessage message recipients) = none ↔
      recipients ≠ [] ∧ ∀ path ∈ message.content.files, readable path
  close : ∀ journal, fails journal .close = none

/-! ## 2. When each method returns -/

section

variable {j : JavaMail} {readable : String → Prop} {fails : Failures j} {β : Type}

theorem returnsIff_perform {call : Call j} {φ : Prop} (h : ∀ journal, fails journal call = none ↔ φ) :
    ReturnsIff (perform fails call) φ := by
  intro w
  rw [← h w.journal]
  cases hcall : fails w.journal call with
  | none =>
    rw [eval_perform_ok hcall]
    exact iff_of_true ⟨(), rfl⟩ rfl
  | some e =>
    rw [eval_perform_error hcall]
    exact iff_of_false (fun ⟨_, h⟩ => nomatch h) fun h => nomatch h

theorem returnsIff_prepare (hfails : Reliable readable fails) (s : Preparation) :
    ReturnsIff (perform fails (.prepare s)) (s ≠ .saveChanges (.text none)) :=
  returnsIff_perform fun journal => hfails.prepare journal s

-- a call on the message does not stop what comes after it, unless it writes a text that is `null`
theorem returnsIff_prepare_bind (hfails : Reliable readable fails) {s : Preparation}
    {m : Fallible Fault (World j) β} {φ : Prop} (hm : ReturnsIff m φ)
    (hs : s ≠ .saveChanges (.text none) := by decide) :
    ReturnsIff (do perform fails (.prepare s); m) φ :=
  ((returnsIff_prepare hfails s).bind fun _ => hm).congr ⟨And.right, And.intro hs⟩

theorem returnsIff_newInternetAddress (text : Option String) :
    ReturnsIff (newInternetAddress (j := j) text)
      (∃ text', text = some text' ∧ j.parse text' ≠ none) := by
  cases text with
  | none => exact (ReturnsIff.throw _).congr (by simp)
  | some text =>
    cases h : j.parse text with
    | none =>
      rw [newInternetAddress, h]
      exact (ReturnsIff.throw _).congr (by simp [h])
    | some address =>
      rw [newInternetAddress, h]
      exact (ReturnsIff.pure address).congr (by simp [h])

theorem returnsIff_internetAddresses (texts : List (Option String)) :
    ReturnsIff (internetAddresses (j := j) texts) (none ∉ texts) := by
  induction texts with
  | nil => exact (ReturnsIff.pure _).congr (by simp)
  | cons text rest ih =>
    cases text with
    | none => exact (ReturnsIff.throw _).congr (by simp)
    | some text => exact (ih.bind fun _ => .pure _).congr (by simp)

theorem returnsIff_setRecipients (hfails : Reliable readable fails) {s : Preparation}
    (hs : s ≠ .saveChanges (.text none)) (texts : Option (List (Option String))) :
    ReturnsIff (setRecipients fails s texts) (none ∉ texts.getD []) := by
  rcases texts with _ | _ | ⟨text, rest⟩
  · exact (ReturnsIff.pure _).congr (by simp)
  · exact (ReturnsIff.pure _).congr (by simp)
  · have hrest := (returnsIff_internetAddresses (j := j) (text :: rest)).bind fun addresses =>
      returnsIff_prepare_bind hfails (.pure addresses) hs
    exact hrest.congr ⟨And.left, fun h => ⟨h, trivial⟩⟩

/-- With a nickname the address is not parsed again. -/
theorem returnsIff_setSender (hfails : Reliable readable fails) (account : Account) :
    ReturnsIff (setSender fails account)
      ((∃ nickName, account.nickName = some nickName ∧ isBlank nickName = false) ∨
        ∃ text, account.fromAddress = some text ∧ j.parse text ≠ none) := by
  have hparsed := returnsIff_newInternetAddress (j := j) account.fromAddress
  cases hname : account.nickName with
  | none =>
    rw [setSender, hname]
    exact hparsed.congr (by simp)
  | some nickName =>
    rw [setSender, hname]
    dsimp only
    split_ifs with hblank
    · have hnone : ¬ ∃ name, some nickName = some name ∧ isBlank name = false := by simp [hblank]
      exact hparsed.congr (or_iff_right hnone).symm
    · exact (returnsIff_prepare_bind hfails (.pure _)).congr
        (iff_of_true trivial (Or.inl ⟨nickName, rfl, eq_false_of_ne_true hblank⟩))

theorem returnsIff_attach (hfails : Reliable readable fails) (paths : List (Option String)) :
    ReturnsIff (attach fails paths) (none ∉ paths) := by
  induction paths with
  | nil => exact (ReturnsIff.pure _).congr (by simp)
  | cons path rest ih =>
    cases path with
    | none => exact (ReturnsIff.throw _).congr (by simp)
    | some path =>
      have hrest := ih.bind fun parts =>
        ReturnsIff.pure (σ := World j) (ε := Fault) (Part.file path (j.encodedName path) :: parts)
      have hall := returnsIff_prepare_bind hfails (s := .attachFile) <|
        returnsIff_prepare_bind hfails (s := .encodeText) <|
        returnsIff_prepare_bind hfails (s := .setFileName) <|
        returnsIff_prepare_bind hfails (s := .addBodyPart) hrest
      exact hall.congr (by simp)

theorem returnsIff_createPart (hfails : Reliable readable fails) (contentId : String)
    (node : MultiContent) :
    ReturnsIff (createPart fails contentId node)
      ((node.type = some .text ∧ node.body ≠ none) ∨
        (node.type = some .mixed ∧ node.imgUrl ≠ none)) := by
  unfold createPart
  split
  case h_1 h => exact (ReturnsIff.throw _).congr (by simp [h])
  case h_2 h =>
    split
    case h_1 hbody => exact (ReturnsIff.throw _).congr (by simp [h, hbody])
    case h_2 body hbody =>
      exact (returnsIff_prepare_bind hfails (.pure _)).congr (by simp [h, hbody])
  case h_3 h =>
    split
    case h_1 himg => exact (ReturnsIff.throw _).congr (by simp [h, himg])
    case h_2 imgUrl himg =>
      refine ReturnsIff.congr (φ := True) ?_ (by simp [h, himg])
      iterate 7 apply returnsIff_prepare_bind hfails
      exact .pure _

theorem returnsIff_createContent (hfails : Reliable readable fails) (contentId : String) (mail : Mail) :
    ReturnsIff (createContent fails contentId mail)
      (∀ node, mail.multiContent = some node → node.Complete) := by
  unfold createContent
  split
  case h_1 h =>
    exact (returnsIff_prepare_bind hfails (.pure _)).congr (by simp [h])
  case h_2 node h =>
    have hbody : ReturnsIff (createBody fails contentId node) node.Complete :=
      ((returnsIff_createPart hfails contentId node).bind fun _ =>
        (returnsIff_attach hfails _).bind fun _ => returnsIff_prepare_bind hfails (.pure _)).congr
          ⟨fun h => ⟨h.1, h.2.1⟩, fun h => ⟨h.part, h.attachments, trivial⟩⟩
    exact (hbody.bind fun _ => returnsIff_prepare_bind hfails (.pure _)).congr (by simp [h])

theorem returnsIff_saveChanges (hfails : Reliable readable fails) {contentId : String} {mail : Mail}
    {content : Content} (h : ContentOf j contentId mail content) :
    ReturnsIff (perform fails (.prepare (.saveChanges content)))
      (mail.multiContent = none → mail.textContent ≠ none) := by
  apply (returnsIff_prepare hfails _).congr
  cases h with
  | text h => simp [h]
  | multipart h hpaths hpart => simp [h]

theorem returnsIff_createMail (hfails : Reliable readable fails) (now : ℤ) (contentId : String)
    (account : Account) (mail : Mail) :
    ReturnsIff (createMail fails now contentId account mail)
      ((∃ text, account.fromAddress = some text ∧ j.parse text ≠ none) ∧
        none ∉ account.addressTo.getD [] ∧ none ∉ account.cc.getD [] ∧
        none ∉ account.bcc.getD [] ∧ mail.Complete) := by
  have hcontent : ∀ sender addressTo cc bcc, ReturnsIff (do
      let content ← createContent fails contentId mail
      perform fails (.prepare .setSentDate)
      perform fails (.prepare (.saveChanges content))
      return (⟨sender, addressTo, cc, bcc, mail.subject, content, mail.getSentDate now⟩ :
        MimeMessage j)) mail.Complete := by
    intro sender addressTo cc bcc
    have hsave := (returnsIff_createContent hfails contentId mail).bind_of
      (Builds.value fun w => builds_createContent contentId mail) fun content hcontent =>
        returnsIff_prepare_bind hfails (s := .setSentDate)
          ((returnsIff_saveChanges hfails hcontent).bind fun _ => ReturnsIff.pure
            (⟨sender, addressTo, cc, bcc, mail.subject, content, mail.getSentDate now⟩ :
              MimeMessage j))
    exact hsave.congr ⟨fun h => ⟨h.2.1, h.1⟩, fun h => ⟨h.node, h.text, trivial⟩⟩
  have hcreate := (returnsIff_newInternetAddress (j := j) account.fromAddress).bind fun _ =>
    returnsIff_prepare_bind hfails (s := .setFrom) <|
    (returnsIff_setRecipients hfails (s := .setTo) (by decide) account.addressTo).bind fun addressTo =>
    (returnsIff_setRecipients hfails (s := .setCc) (by decide) account.cc).bind fun cc =>
    (returnsIff_setRecipients hfails (s := .setBcc) (by decide) account.bcc).bind fun bcc =>
    (returnsIff_setSender hfails account).bind fun sender =>
    returnsIff_prepare_bind hfails (s := .setFrom) <|
    returnsIff_prepare_bind hfails (s := .setSubject) <| hcontent sender addressTo cc bcc
  apply hcreate.congr
  constructor
  · rintro ⟨hsender, hto, hcc, hbcc, _, hcomplete⟩
    exact ⟨hsender, hto, hcc, hbcc, hcomplete⟩
  · rintro ⟨hsender, hto, hcc, hbcc, hcomplete⟩
    exact ⟨hsender, hto, hcc, hbcc, .inr hsender, hcomplete⟩

/-- The files of the content are those of the settings. -/
theorem ContentOf.files_eq {contentId : String} {mail : Mail} {content : Content}
    (h : ContentOf j contentId mail content) : content.files = mail.files := by
  cases h with
  | text h => rw [Content.files, Mail.files, h, Option.elim_none]
  | @multipart node paths part h hpaths hpart =>
    have hattached : (paths.map fun path => Part.file path (j.encodedName path)).flatMap Part.files =
        (node.attachments.getD []).reduceOption := by
      rw [hpaths, List.flatMap_map, List.reduceOption, List.filterMap_map]
      simp [Part.files]
    rw [Content.files, Mail.files, h, Option.elim_some, MultiContent.files, List.flatMap_append,
      hattached, List.flatMap_singleton]
    cases hpart with
    | html htype => rw [htype]; rfl
    | related htype himgUrl => rw [htype, himgUrl]; rfl

theorem returnsIff_deliver (hfails : Reliable readable fails) (now : ℤ) (contentId : String)
    (account : Account) (mail : Mail) :
    ReturnsIff (deliver fails now contentId account mail) (Sendable j readable account mail) := by
  have hsend : ∀ message, MadeFrom j now contentId account mail message →
      ReturnsIff (do
        getTransport fails
        perform fails (.connect account.fromAddress account.password)
        perform fails (.sendMessage message message.getAllRecipients)
        perform fails .close)
        (True ∧ (account.fromAddress ≠ none ∧ account.password ≠ none) ∧
          (parsable j account.addressTo ++ parsable j account.cc ++ parsable j account.bcc ≠ [] ∧
            ∀ path ∈ mail.files, readable path) ∧ True) := by
    intro message hmessage
    have hget : ReturnsIff (getTransport fails) True :=
      ((returnsIff_perform fun journal => iff_of_true (hfails.getTransport journal) trivial).bind
        fun _ _ => iff_of_true ⟨(), rfl⟩ trivial).congr and_self_iff
    refine hget.bind fun _ => (returnsIff_perform fun journal =>
      hfails.connect journal _ _).bind fun _ => ?_
    rw [← hmessage.addressTo, ← hmessage.cc, ← hmessage.bcc, ← hmessage.content.files_eq]
    exact (returnsIff_perform fun journal => hfails.sendMessage journal _ _).bind fun _ =>
      returnsIff_perform fun journal => iff_of_true (hfails.close journal) trivial
  have hdeliver := (returnsIff_createMail hfails now contentId account mail).bind_of
    (Builds.value fun w => builds_createMail fails now contentId account mail) hsend
  apply hdeliver.congr
  constructor
  · rintro ⟨⟨hsender, hto, hcc, hbcc, hcontent⟩, _, ⟨-, hpassword⟩, ⟨hreached, hfiles⟩, _⟩
    exact ⟨hsender, hpassword, hto, hcc, hbcc, hreached, hcontent, hfiles⟩
  · intro h
    have huser : account.fromAddress ≠ none := by
      obtain ⟨text, hfrom, -⟩ := h.sender
      simp [hfrom]
    exact ⟨⟨h.sender, h.addressTo, h.cc, h.bcc, h.content⟩, trivial, ⟨huser, h.password⟩,
      ⟨h.reached, h.files⟩, trivial⟩

theorem returnsIff_closeTransport (hfails : Reliable readable fails) :
    ReturnsIff (closeTransport fails) True := by
  intro w
  rw [closeTransport, eval_ofStep]
  split_ifs
  · exact (ReturnsIff.mapError (returnsIff_perform fun journal =>
      iff_of_true (hfails.close journal) trivial) closeFailed) w
  · exact iff_of_true ⟨(), rfl⟩ trivial

end

/-! ## 3. When `send` returns -/

theorem send_returns_iff {j : JavaMail} {readable : String → Prop} {fails : Failures j}
    (hfails : Reliable readable fails) (util : MailUtil) (now : ℤ) (contentId : String)
    (w : World j) :
    ((util.send fails now contentId).eval w).1 = .ok () ↔
      util.properties ≠ none ∧ ∃ account mail, util.account = some account ∧
        util.mail = some mail ∧ Sendable j readable account mail := by
  obtain ⟨properties, account, mail⟩ := util
  cases properties with
  | none => exact iff_of_false (fun h => nomatch h) fun h => h.1 rfl
  | some properties =>
    cases account with
    | none => exact iff_of_false (fun h => nomatch h) fun ⟨_, _, _, h, _⟩ => nomatch h
    | some account =>
      cases mail with
      | none => exact iff_of_false (fun h => nomatch h) fun ⟨_, _, _, _, h, _⟩ => nomatch h
      | some mail =>
        have hsend := ((returnsIff_deliver hfails now contentId account mail).mapError
          failed).withFinalizer (returnsIff_closeTransport hfails)
        have hreturns := hsend { w with transport := false }
        rw [eval_send fails (by simp) rfl rfl]
        constructor
        · intro h
          exact ⟨by simp, account, mail, rfl, rfl, hreturns.mp ⟨(), h⟩⟩
        · intro h
          obtain ⟨_, account', mail', haccount, hmail, hsendable⟩ := h
          cases haccount
          cases hmail
          obtain ⟨_, hok⟩ := hreturns.mpr hsendable
          exact hok

/-- Addresses kept as they are written; an empty text is none. -/
def plainJavaMail : JavaMail where
  Address := String
  parse text := if text = "" then none else some text
  personal address nickName := nickName ++ " <" ++ address ++ ">"
  encodedName path := ((path.splitOn "/").getLast?).getD ""

def acceptAll {j : JavaMail} : Failures j
  | _, .prepare (.saveChanges (.text none)) => some .nullPointerException
  | _, .connect none _ | _, .connect _ none | _, .sendMessage _ [] => some .messagingException
  | _, _ => none

theorem reliable_acceptAll {j : JavaMail} :
    Reliable (fun _ => True) (acceptAll (j := j)) where
  prepare _ s := by
    cases s with
    | saveChanges content => rcases content with (_ | text) | parts <;> simp [acceptAll]
    | _ => exact iff_of_true rfl (by simp)
  getTransport _ := rfl
  connect _ user password := by cases user <;> cases password <;> simp [acceptAll]
  sendMessage _ _ recipients := by cases recipients <;> simp [acceptAll]
  close _ := rfl

def exampleAccount : Account where
  fromAddress := some "from@mail.com"
  nickName := none
  addressTo := some [some "", some "to@mail.com"]
  cc := none
  bcc := none
  password := some "password"

def exampleMail : Mail where
  subject := some "subject"
  textContent := some "text"
  multiContent := none
  sentDate := none

/-- An address that cannot be parsed does not stop the mail to the other one. -/
theorem send_returns_iff_two :
    ((MailUtil.send acceptAll ⟨some [], some exampleAccount, some exampleMail⟩ 0 "id").eval
      (⟨[], false⟩ : World plainJavaMail)).1 = .ok () :=
  (send_returns_iff reliable_acceptAll _ 0 "id" _).mpr ⟨by simp, exampleAccount, exampleMail, rfl, rfl,
    { sender := ⟨"from@mail.com", rfl, by simp [plainJavaMail]⟩
      password := by simp [exampleAccount]
      addressTo := by simp [exampleAccount]
      cc := by simp [exampleAccount]
      bcc := by simp [exampleAccount]
      reached := fun h => nomatch h
      content := ⟨by simp [exampleMail], by simp [exampleMail]⟩
      files := fun _ _ => trivial }⟩

end UtilsRepo.Mailing
