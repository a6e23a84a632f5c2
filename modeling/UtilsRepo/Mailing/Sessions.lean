import UtilsRepo.Lib.Simulation
import UtilsRepo.Mailing.MailUtil

/-!
# What a call of `send` leaves behind

Whatever JavaMail does: the mail that is sent is the one its settings ask for, it is sent once at most,
every transport is closed, and `send` returns exactly if the mail was sent and the transport could be
closed.
-/

namespace UtilsRepo.Mailing

open Fallible

/-! ## 1. The mail of some settings -/

/-- The addresses in a list that can be parsed, in its order. -/
def parsable (j : JavaMail) (texts : Option (List (Option String))) : List j.Address :=
  (texts.getD []).filterMap fun text => text.bind j.parse

/-- The sender of an account: with its nickname, unless that is blank. -/
inductive SenderOf (j : JavaMail) (account : Account) : j.Address → Prop
  | named {text nickName : String} (haddress : account.fromAddress = some text)
      (hname : account.nickName = some nickName) (hblank : isBlank nickName = false) :
      SenderOf j account (j.personal text nickName)
  | plain {text : String} {address : j.Address} (haddress : account.fromAddress = some text)
      (hname : ∀ nickName, account.nickName = some nickName → isBlank nickName = true)
      (hparse : j.parse text = some address) : SenderOf j account address

/-- The part a node asks for: where it has an image, the text refers to it. -/
inductive PartOf (contentId : String) (node : MultiContent) : Part → Prop
  | html {body : String} (htype : node.type = some .text) (hbody : node.body = some body) :
      PartOf contentId node (.html ("<p>" ++ body ++ "</p>"))
  | related {imgUrl : String} (htype : node.type = some .mixed) (himgUrl : node.imgUrl = some imgUrl) :
      PartOf contentId node (.related
        ("<p>" ++ node.body.getD "null" ++ "</p><img src='cid:" ++ contentId ++ "'/>") imgUrl
        ("<" ++ contentId ++ ">"))

/-- The content of a mail: its text, or the attachments in their order with the part behind them. -/
inductive ContentOf (j : JavaMail) (contentId : String) (mail : Mail) : Content → Prop
  | text (h : mail.multiContent = none) : ContentOf j contentId mail (.text mail.textContent)
  | multipart {node : MultiContent} {paths : List String} {part : Part}
      (h : mail.multiContent = some node) (hpaths : node.attachments.getD [] = paths.map some)
      (hpart : PartOf contentId node part) :
      ContentOf j contentId mail
        (.multipart (paths.map (fun path => .file path (j.encodedName path)) ++ [part]))

structure MadeFrom (j : JavaMail) (now : ℤ) (contentId : String) (account : Account) (mail : Mail)
    (message : MimeMessage j) : Prop where
  sender : SenderOf j account message.sender
  addressTo : message.addressTo = parsable j account.addressTo
  cc : message.cc = parsable j account.cc
  bcc : message.bcc = parsable j account.bcc
  subject : message.subject = mail.subject
  content : ContentOf j contentId mail message.content
  sentDate : message.sentDate = mail.getSentDate now

/-! ## 2. Building it -/

section Building

variable {j : JavaMail} {fails : Failures j} {w : World j} {β γ : Type}

/-- Since `w` only calls on the message were made. -/
def Prepared (w w' : World j) : Prop :=
  ∃ calls, w'.journal = w.journal ++ calls ∧ (∀ c ∈ calls, ∃ s, c.1 = .prepare s) ∧
    w'.transport = w.transport

theorem Prepared.refl (w : World j) : Prepared w w :=
  ⟨[], by simp⟩

theorem Prepared.log {w' : World j} (h : Prepared w w') (s : Preparation) (outcome : Option Fault) :
    Prepared w (w'.log (.prepare s) outcome) := by
  obtain ⟨calls, hjournal, hcalls, htransport⟩ := h
  refine ⟨calls ++ [(.prepare s, outcome)], ?_, ?_, htransport⟩
  · rw [World.log, hjournal, List.append_assoc]
  · rw [List.forall_mem_append]
    exact ⟨hcalls, List.forall_mem_singleton.mpr ⟨s, rfl⟩⟩

/-- Code that prepares a message, and what comes out of it. -/
def Builds (w : World j) (m : Fallible Fault (World j) β) (Q : β → Prop) : Prop :=
  Triple (Prepared w) m (fun b w' => Prepared w w' ∧ Q b) (Prepared w)

theorem Builds.pure {Q : β → Prop} {b : β} (h : Q b) : Builds w (Pure.pure b) Q :=
  Triple.pure fun _ hw => ⟨hw, h⟩

theorem Builds.throw {Q : β → Prop} (e : Fault) :
    Builds w (MonadExcept.throw e : Fallible Fault (World j) β) Q :=
  Triple.throw fun _ hw => hw

theorem Builds.mono {Q R : β → Prop} {m : Fallible Fault (World j) β} (hm : Builds w m Q)
    (h : ∀ b, Q b → R b) : Builds w m R :=
  Triple.mono hm fun b _ hb => ⟨hb.1, h b hb.2⟩

theorem Builds.value {Q : β → Prop} {m : Fallible Fault (World j) β} (hm : ∀ w, Builds w m Q) :
    ∀ w b w', m.eval w = (.ok b, w') → Q b := by
  intro w b w' h
  have hb := hm w w (Prepared.refl w)
  rw [h] at hb
  exact hb.2

theorem Builds.bind {Q : β → Prop} {R : γ → Prop} {m : Fallible Fault (World j) β}
    {f : β → Fallible Fault (World j) γ} (hm : Builds w m Q) (hf : ∀ b, Q b → Builds w (f b) R) :
    Builds w (m >>= f) R :=
  Triple.bind hm fun b => Triple.assume (hf b)

theorem builds_prepare (s : Preparation) :
    Builds w (perform fails (.prepare s)) fun _ => True := by
  intro w' hw'
  cases h : fails w'.journal (.prepare s) with
  | none =>
    rw [eval_perform_ok h]
    exact ⟨hw'.log s none, trivial⟩
  | some e =>
    rw [eval_perform_error h]
    exact hw'.log s (some e)

theorem Builds.prepare {Q : β → Prop} (s : Preparation) {m : Fallible Fault (World j) β}
    (hm : Builds w m Q) : Builds w (do perform fails (.prepare s); m) Q :=
  (builds_prepare s).bind fun _ _ => hm

theorem builds_newInternetAddress (text : Option String) :
    Builds w (newInternetAddress (j := j) text) fun address =>
      ∃ text', text = some text' ∧ j.parse text' = some address := by
  unfold newInternetAddress
  split
  · exact .throw _
  · split
    case h_1 address hparse => exact .pure ⟨_, rfl, hparse⟩
    case h_2 => exact .throw _

theorem builds_internetAddresses (texts : List (Option String)) :
    Builds w (internetAddresses (j := j) texts) fun addresses =>
      addresses = texts.filterMap fun text => text.bind j.parse := by
  induction texts with
  | nil => exact .pure rfl
  | cons text rest ih =>
    cases text with
    | none => exact .throw _
    | some text =>
      refine ih.bind fun addresses haddresses => .pure ?_
      rw [List.filterMap_cons, Option.bind_some, haddresses]
      cases j.parse text <;> rfl

theorem builds_setRecipients (s : Preparation) (texts : Option (List (Option String))) :
    Builds w (setRecipients fails s texts) fun addresses => addresses = parsable j texts := by
  unfold setRecipients
  split
  · exact .pure rfl
  · exact .pure rfl
  · exact (builds_internetAddresses _).bind fun addresses haddresses =>
      .prepare s (.pure haddresses)

theorem builds_setSender {account : Account} {text : String} (hfrom : account.fromAddress = some text) :
    Builds w (setSender fails account) (SenderOf j account) := by
  have hplain (hname : ∀ nickName, account.nickName = some nickName → isBlank nickName = true) :
      Builds w (newInternetAddress (j := j) account.fromAddress) (SenderOf j account) :=
    (builds_newInternetAddress account.fromAddress).mono
      fun _ ⟨_, htext, hparse⟩ => .plain htext hname hparse
  unfold setSender
  split
  case h_1 hnone => exact hplain fun nickName h => nomatch hnone.symm.trans h
  case h_2 nickName hsome =>
    split_ifs with hblank
    · apply hplain
      intro nickName' h
      cases hsome.symm.trans h
      exact hblank
    · rw [hfrom]
      exact .prepare _ (.pure (.named hfrom hsome (eq_false_of_ne_true hblank)))

theorem builds_attach (paths : List (Option String)) :
    Builds w (attach fails paths) fun parts => ∃ names : List String, paths = names.map some ∧
      parts = names.map fun path => .file path (j.encodedName path) := by
  induction paths with
  | nil => exact .pure ⟨[], rfl, rfl⟩
  | cons path rest ih =>
    cases path with
    | none => exact .throw _
    | some path =>
      refine .prepare _ (.prepare _ (.prepare _ (.prepare _ (ih.bind fun parts hparts => ?_))))
      obtain ⟨names, rfl, rfl⟩ := hparts
      exact .pure ⟨path :: names, rfl, rfl⟩

theorem builds_createPart (contentId : String) (node : MultiContent) :
    Builds w (createPart fails contentId node) (PartOf contentId node) := by
  unfold createPart
  split
  case h_1 => exact .throw _
  case h_2 htype =>
    split
    case h_1 => exact .throw _
    case h_2 body hbody => exact .prepare _ (.pure (.html htype hbody))
  case h_3 htype =>
    split
    case h_1 => exact .throw _
    case h_2 imgUrl himgUrl =>
      exact .prepare _ (.prepare _ (.prepare _ (.prepare _ (.prepare _ (.prepare _ (.prepare _
        (.pure (.related htype himgUrl))))))))

theorem builds_createContent (contentId : String) (mail : Mail) :
    Builds w (createContent fails contentId mail) (ContentOf j contentId mail) := by
  unfold createContent
  split
  case h_1 h => exact .prepare _ (.pure (.text h))
  case h_2 node h =>
    refine Builds.bind (Q := fun parts => ContentOf j contentId mail (.multipart parts)) ?_
      fun parts hparts => .prepare _ (.pure hparts)
    refine (builds_createPart contentId node).bind fun part hpart =>
      (builds_attach _).bind fun attachments hattachments => ?_
    obtain ⟨paths, hpaths, rfl⟩ := hattachments
    exact .prepare _ (.pure (.multipart h hpaths hpart))

variable (fails) in
theorem builds_createMail (now : ℤ) (contentId : String) (account : Account) (mail : Mail) :
    Builds w (createMail fails now contentId account mail)
      (MadeFrom j now contentId account mail) := by
  refine (builds_newInternetAddress _).bind fun _ hfrom => .prepare _ ?_
  obtain ⟨text, hfrom, _⟩ := hfrom
  refine (builds_setRecipients _ _).bind fun addressTo hto => ?_
  refine (builds_setRecipients _ _).bind fun cc hcc => ?_
  refine (builds_setRecipients _ _).bind fun bcc hbcc => ?_
  refine (builds_setSender hfrom).bind fun sender hsender => .prepare _ (.prepare _ ?_)
  refine (builds_createContent contentId mail).bind fun content hcontent => ?_
  exact .prepare _ (.prepare _ (.pure ⟨hsender, hto, hcc, hbcc, rfl, hcontent, rfl⟩))

end Building

/-! ## 3. Sending it -/

/-- How far `send` gets with a built mail: what fails, and what the closings throw. -/
inductive Attempt where
  | noTransport (e : Fault)
  | notConnected (e : Fault) (closing : Option Fault)
  | notSent (e : Fault) (closing : Option Fault)
  | sent (closing closing' : Option Fault)

namespace Attempt

def calls {j : JavaMail} (account : Account) (message : MimeMessage j) :
    Attempt → List (Call j × Option Fault)
  | noTransport e => [(.getTransport, some e)]
  | notConnected e closing =>
      [(.getTransport, none), (.connect account.fromAddress account.password, some e),
        (.close, closing)]
  | notSent e closing =>
      [(.getTransport, none), (.connect account.fromAddress account.password, none),
        (.sendMessage message message.getAllRecipients, some e), (.close, closing)]
  | sent closing closing' =>
      [(.getTransport, none), (.connect account.fromAddress account.password, none),
        (.sendMessage message message.getAllRecipients, none), (.close, closing), (.close, closing')]

-- the last closing has the last word
def outcome : Attempt → Except SendException Unit
  | noTransport e | notConnected e none | notSent e none => .error (failed e)
  | notConnected _ (some e) | notSent _ (some e) | sent _ (some e) => .error (closeFailed e)
  | sent (some e) none => .error (failed e)
  | sent none none => .ok ()

end Attempt

/-- What can come of a call of `send`, with the calls it makes. -/
inductive SendCase (j : JavaMail) (util : MailUtil) (now : ℤ) (contentId : String) :
    Except SendException Unit → List (Call j × Option Fault) → Prop
  | refused {message : String} (h : message ∈ ["必要信息未设置", "邮箱信息未设置", "邮件信息未设置"]) :
      SendCase j util now contentId (.error (.mailUtilException message none)) []
  | notBuilt {e : Fault} {preps : List (Call j × Option Fault)}
      (hpreps : ∀ c ∈ preps, ∃ s, c.1 = .prepare s) :
      SendCase j util now contentId (.error (failed e)) preps
  | tried {account : Account} {mail : Mail} {message : MimeMessage j}
      {preps : List (Call j × Option Fault)} {attempt : Attempt}
      (haccount : util.account = some account) (hmail : util.mail = some mail)
      (hmade : MadeFrom j now contentId account mail message)
      (hpreps : ∀ c ∈ preps, ∃ s, c.1 = .prepare s) :
      SendCase j util now contentId attempt.outcome (preps ++ attempt.calls account message)

section Send

variable {j : JavaMail} (fails : Failures j)

theorem eval_finally_closed {m : Fallible Fault (World j) Unit} {w w' : World j}
    {r : Except Fault Unit} (hm : m.eval w = (r, w')) (htransport : w'.transport = false) :
    (withFinalizer (mapError failed m) (closeTransport fails)).eval w = (r.mapError failed, w') := by
  have hmap : (mapError failed m).eval w = (r.mapError failed, w') := by rw [eval_mapError, hm]
  have hclose : (closeTransport fails).eval ((mapError failed m).eval w).2 = (.ok (), w') := by
    rw [hmap, closeTransport, eval_ofStep, htransport]
    rfl
  rw [eval_withFinalizer_ok hclose, hmap]

theorem eval_finally_open {m : Fallible Fault (World j) Unit} {w w' : World j}
    {r : Except Fault Unit} (hm : m.eval w = (r, w')) (htransport : w'.transport = true) :
    (withFinalizer (mapError failed m) (closeTransport fails)).eval w =
      (match fails w'.journal .close with
        | none => r.mapError failed
        | some e => .error (closeFailed e), w'.log .close (fails w'.journal .close)) := by
  have hmap : (mapError failed m).eval w = (r.mapError failed, w') := by rw [eval_mapError, hm]
  cases hclose : fails w'.journal .close with
  | none =>
    have hclosed : (closeTransport fails).eval ((mapError failed m).eval w).2 =
        (.ok (), w'.log .close none) := by
      rw [hmap, closeTransport, eval_ofStep, if_pos htransport, eval_mapError,
        eval_perform_ok hclose]
      rfl
    rw [eval_withFinalizer_ok hclosed, hmap]
  | some e =>
    apply eval_withFinalizer_error
    rw [hmap, closeTransport, eval_ofStep, if_pos htransport, eval_mapError,
      eval_perform_error hclose]
    rfl

/-- With an open transport the attempt ends in the closing of `finally`. -/
theorem exists_attempt_of_open {m : Fallible Fault (World j) Unit} {w w' : World j}
    {r : Except Fault Unit} (hm : m.eval w = (r, w')) (htransport : w'.transport = true)
    {account : Account} {message : MimeMessage j} {before : List (Call j × Option Fault)}
    (attempt : Option Fault → Attempt)
    (houtcome : ∀ closing, (attempt closing).outcome =
      match closing with
      | none => r.mapError failed
      | some e => .error (closeFailed e))
    (hjournal : ∀ closing, w'.journal ++ [(.close, closing)] =
      before ++ (attempt closing).calls account message) :
    ∃ (a : Attempt) (w'' : World j),
      (withFinalizer (mapError failed m) (closeTransport fails)).eval w = (a.outcome, w'') ∧
        w''.journal = before ++ a.calls account message := by
  refine ⟨attempt (fails w'.journal .close), w'.log .close (fails w'.journal .close), ?_,
    hjournal _⟩
  rw [eval_finally_open fails hm htransport, houtcome]

/-- What `send` does once the mail is built. -/
theorem exists_attempt {now : ℤ} {contentId : String} {account : Account} {mail : Mail}
    {message : MimeMessage j} {w w' : World j}
    (hbuilt : (createMail fails now contentId account mail).eval w = (.ok message, w'))
    (htransport : w'.transport = false) :
    ∃ (attempt : Attempt) (w'' : World j),
      (withFinalizer (mapError failed (deliver fails now contentId account mail))
        (closeTransport fails)).eval w = (attempt.outcome, w'') ∧
      w''.journal = w'.journal ++ attempt.calls account message := by
  have hdeliver := eval_bind_ok (fun message => do
      getTransport fails
      perform fails (.connect account.fromAddress account.password)
      perform fails (.sendMessage message message.getAllRecipients)
      perform fails .close) hbuilt
  change (deliver fails now contentId account mail).eval w = _ at hdeliver
  cases hget : fails w'.journal .getTransport with
  | some e =>
    have hstop : (getTransport fails).eval w' = (.error e, w'.log .getTransport (some e)) :=
      eval_bind_error _ (eval_perform_error hget)
    rw [eval_bind_error _ hstop] at hdeliver
    exact ⟨.noTransport e, _, eval_finally_closed fails hdeliver htransport, rfl⟩
  | none =>
    have hopen : (getTransport fails).eval w' =
        (.ok (), { w'.log .getTransport none with transport := true }) :=
      eval_bind_ok _ (eval_perform_ok hget)
    rw [eval_bind_ok _ hopen] at hdeliver
    generalize hw₁ : { w'.log .getTransport none with transport := true } = w₁ at hdeliver
    have hopen₁ : w₁.transport = true := by rw [← hw₁]
    have hjournal₁ : w₁.journal = w'.journal ++ [(.getTransport, none)] := by
      rw [← hw₁]
      rfl
    cases hconnect : fails w₁.journal (.connect account.fromAddress account.password) with
    | some e =>
      rw [eval_bind_error _ (eval_perform_error hconnect)] at hdeliver
      apply exists_attempt_of_open fails hdeliver hopen₁ (.notConnected e)
      · intro closing
        cases closing <;> rfl
      · simp [World.log, hjournal₁, Attempt.calls]
    | none =>
      rw [eval_bind_ok _ (eval_perform_ok hconnect)] at hdeliver
      generalize hw₂ : w₁.log (.connect account.fromAddress account.password) none = w₂ at hdeliver
      have hopen₂ : w₂.transport = true := by rw [← hw₂, World.log, hopen₁]
      have hjournal₂ : w₂.journal = w'.journal ++ [(.getTransport, none),
          (.connect account.fromAddress account.password, none)] := by
        simp [← hw₂, World.log, hjournal₁]
      cases hsend : fails w₂.journal (.sendMessage message message.getAllRecipients) with
      | some e =>
        rw [eval_bind_error _ (eval_perform_error hsend)] at hdeliver
        apply exists_attempt_of_open fails hdeliver hopen₂ (.notSent e)
        · intro closing
          cases closing <;> rfl
        · simp [World.log, hjournal₂, Attempt.calls]
      | none =>
        rw [eval_bind_ok _ (eval_perform_ok hsend)] at hdeliver
        generalize hw₃ : w₂.log (.sendMessage message message.getAllRecipients) none = w₃ at hdeliver
        have hopen₃ : w₃.transport = true := by rw [← hw₃, World.log, hopen₂]
        have hjournal₃ : w₃.journal = w'.journal ++ [(.getTransport, none),
            (.connect account.fromAddress account.password, none),
            (.sendMessage message message.getAllRecipients, none)] := by
          simp [← hw₃, World.log, hjournal₂]
        cases hclose : fails w₃.journal .close with
        | none =>
          rw [eval_perform_ok hclose] at hdeliver
          apply exists_attempt_of_open fails hdeliver hopen₃ (.sent none)
          · intro closing
            cases closing <;> rfl
          · simp [World.log, hjournal₃, Attempt.calls]
        | some e =>
          rw [eval_perform_error hclose] at hdeliver
          apply exists_attempt_of_open fails hdeliver hopen₃ (.sent (some e))
          · intro closing
            cases closing <;> rfl
          · simp [World.log, hjournal₃, Attempt.calls]

theorem eval_send {util : MailUtil} {account : Account} {mail : Mail}
    (hproperties : util.properties ≠ none) (haccount : util.account = some account)
    (hmail : util.mail = some mail) (now : ℤ) (contentId : String) (w : World j) :
    (util.send fails now contentId).eval w =
      (withFinalizer (mapError failed (deliver fails now contentId account mail))
        (closeTransport fails)).eval { w with transport := false } := by
  cases hset : util.properties with
  | none => exact absurd hset hproperties
  | some properties =>
    rw [MailUtil.send, hset, haccount, hmail]
    exact eval_bind_ok _ rfl

theorem send_cases (util : MailUtil) (now : ℤ) (contentId : String) (w : World j) :
    ∃ calls, ((util.send fails now contentId).eval w).2.journal = w.journal ++ calls ∧
      SendCase j util now contentId ((util.send fails now contentId).eval w).1 calls := by
  obtain ⟨properties, account, mail⟩ := util
  cases properties with
  | none => exact ⟨[], (List.append_nil _).symm, .refused (by simp)⟩
  | some properties =>
    cases account with
    | none => exact ⟨[], (List.append_nil _).symm, .refused (by simp)⟩
    | some account =>
      cases mail with
      | none => exact ⟨[], (List.append_nil _).symm, .refused (by simp)⟩
      | some mail =>
        rw [eval_send fails (by simp) rfl rfl]
        have hbuilds := builds_createMail fails now contentId account mail
          _ (Prepared.refl { w with transport := false })
        cases hbuilt : (createMail fails now contentId account mail).eval
            { w with transport := false } with
        | mk r w₁ =>
          rw [hbuilt] at hbuilds
          cases r with
          | error e =>
            obtain ⟨preps, hjournal, hpreps, htransport⟩ := hbuilds
            have hdeliver := eval_bind_error (fun message => do
              getTransport fails
              perform fails (.connect account.fromAddress account.password)
              perform fails (.sendMessage message message.getAllRecipients)
              perform fails .close) hbuilt
            change (deliver fails now contentId account mail).eval _ = _ at hdeliver
            rw [eval_finally_closed fails hdeliver htransport]
            exact ⟨preps, hjournal, .notBuilt hpreps⟩
          | ok message =>
            obtain ⟨⟨preps, hjournal, hpreps, htransport⟩, hmade⟩ := hbuilds
            obtain ⟨attempt, w₂, heval, hjournal₂⟩ := exists_attempt fails hbuilt htransport
            rw [heval]
            refine ⟨preps ++ attempt.calls account message, ?_, .tried rfl rfl hmade hpreps⟩
            rw [hjournal₂, hjournal, List.append_assoc]

end Send

/-! ## 4. What can be relied on -/

def Call.isSendMessage {j : JavaMail} : Call j → Bool
  | .sendMessage _ _ => true
  | _ => false

/-- A mail has gone out. -/
def Delivered {j : JavaMail} (calls : List (Call j × Option Fault)) : Prop :=
  ∃ message recipients, (.sendMessage message recipients, none) ∈ calls

structure Settled (j : JavaMail) (util : MailUtil) (now : ℤ) (contentId : String)
    (r : Except SendException Unit) (calls : List (Call j × Option Fault)) : Prop where
  /-- What is sent is the mail of the settings, to all who can be reached, as the account. -/
  sent : ∀ message recipients outcome, (.sendMessage message recipients, outcome) ∈ calls →
    recipients = message.getAllRecipients ∧ ∃ account mail, util.account = some account ∧
      util.mail = some mail ∧ MadeFrom j now contentId account mail message ∧
        (.connect account.fromAddress account.password, none) ∈ calls
  once : calls.countP (fun c => c.1.isSendMessage) ≤ 1
  closed : (.getTransport, none) ∈ calls → ∃ closing, calls.getLast? = some (.close, closing)
  /-- A failure to close hides that the mail has gone out. -/
  returns_iff : r = .ok () ↔
    Delivered calls ∧ ∀ outcome, (.close, outcome) ∈ calls → outcome = none
  /-- What the closing in `finally` throws hides what was thrown before. -/
  masked : ∀ cause, calls.getLast? = some (.close, some cause) → r = .error (closeFailed cause)
  thrown : ∀ e, r = .error e →
    (∃ message ∈ ["必要信息未设置", "邮箱信息未设置", "邮件信息未设置"],
        e = .mailUtilException message none ∧ calls = []) ∨
      (∃ cause, e = failed cause) ∨
        ∃ cause, e = closeFailed cause ∧ calls.getLast? = some (.close, some cause)

section Settled

variable {j : JavaMail} {util : MailUtil} {now : ℤ} {contentId : String}
  {preps : List (Call j × Option Fault)} {account : Account} {mail : Mail} {message : MimeMessage j}

theorem mem_append_of_preps (hpreps : ∀ c ∈ preps, ∃ s, c.1 = .prepare s)
    {calls : List (Call j × Option Fault)} {c : Call j × Option Fault}
    (hc : ∀ s, c.1 ≠ .prepare s) : c ∈ preps ++ calls ↔ c ∈ calls := by
  rw [List.mem_append]
  constructor
  · rintro (h | h)
    · obtain ⟨s, hs⟩ := hpreps c h
      exact absurd hs (hc s)
    · exact h
  · exact .inr

theorem countP_preps (hpreps : ∀ c ∈ preps, ∃ s, c.1 = .prepare s) :
    preps.countP (fun c => c.1.isSendMessage) = 0 := by
  rw [List.countP_eq_zero]
  intro c hc
  obtain ⟨s, hs⟩ := hpreps c hc
  rw [hs]
  exact Bool.false_ne_true

theorem settled_of_attempt (haccount : util.account = some account) (hmail : util.mail = some mail)
    (hmade : MadeFrom j now contentId account mail message)
    (hpreps : ∀ c ∈ preps, ∃ s, c.1 = .prepare s) (attempt : Attempt) :
    Settled j util now contentId attempt.outcome (preps ++ attempt.calls account message) := by
  have hmem {c : Call j × Option Fault} (hc : ∀ s, c.1 ≠ .prepare s) :
      c ∈ preps ++ attempt.calls account message ↔ c ∈ attempt.calls account message :=
    mem_append_of_preps hpreps hc
  constructor
  case sent =>
    intro m recipients outcome hsent
    rw [hmem (by simp)] at hsent
    have hreached : m = message ∧ recipients = message.getAllRecipients ∧
        (.connect account.fromAddress account.password, none) ∈ attempt.calls account message := by
      cases attempt <;> simp_all [Attempt.calls]
    obtain ⟨rfl, rfl, hconnected⟩ := hreached
    exact ⟨rfl, account, mail, haccount, hmail, hmade, List.mem_append_right _ hconnected⟩
  case once =>
    rw [List.countP_append, countP_preps hpreps, Nat.zero_add]
    cases attempt <;> simp [Attempt.calls, Call.isSendMessage]
  case closed =>
    rw [hmem (by simp)]
    intro hget
    cases attempt <;> simp_all [Attempt.calls, List.getLast?_append]
  case returns_iff =>
    have hdelivered : Delivered (preps ++ attempt.calls account message) ↔
        Delivered (attempt.calls account message) :=
      exists_congr fun m => exists_congr fun recipients => hmem (by simp)
    have hclosings : (∀ outcome, (.close, outcome) ∈ preps ++ attempt.calls account message →
        outcome = none) ↔ ∀ outcome, (.close, outcome) ∈ attempt.calls account message →
          outcome = none :=
      forall_congr' fun outcome => by rw [hmem (by simp)]
    rw [hdelivered, hclosings]
    rcases attempt with e | ⟨e, _ | e'⟩ | ⟨e, _ | e'⟩ | ⟨_ | e, _ | e'⟩ <;>
      simp [Attempt.calls, Attempt.outcome, Delivered]
  case masked =>
    intro cause hlast
    rcases attempt with e | ⟨e, _ | e'⟩ | ⟨e, _ | e'⟩ | ⟨_ | e, _ | e'⟩ <;>
      simp_all [Attempt.calls, Attempt.outcome, List.getLast?_append]
  case thrown =>
    intro e he
    right
    have hlast : ∀ c, (attempt.calls account message).getLast? = some c →
        (preps ++ attempt.calls account message).getLast? = some c := by
      intro c hc
      rw [List.getLast?_append, hc, Option.some_or]
    rcases attempt with cause | ⟨cause, _ | cause'⟩ | ⟨cause, _ | cause'⟩ | ⟨_ | cause, _ | cause'⟩
    case notConnected.some | notSent.some | sent.none.some | sent.some.some =>
      cases he
      exact .inr ⟨cause', rfl, hlast _ rfl⟩
    case sent.none.none => cases he
    all_goals
      cases he
      exact .inl ⟨cause, rfl⟩

theorem settled_of_refused {text : String}
    (h : text ∈ ["必要信息未设置", "邮箱信息未设置", "邮件信息未设置"]) :
    Settled j util now contentId (.error (.mailUtilException text none)) [] where
  sent _ _ _ hsent := nomatch hsent
  once := Nat.zero_le 1
  closed hget := nomatch hget
  returns_iff := iff_of_false (fun h => nomatch h) fun ⟨⟨_, _, hsent⟩, _⟩ => nomatch hsent
  masked _ hlast := nomatch hlast
  thrown e he := by
    cases he
    exact .inl ⟨text, h, rfl, rfl⟩

theorem settled_of_preps (hpreps : ∀ c ∈ preps, ∃ s, c.1 = .prepare s) (e : Fault) :
    Settled j util now contentId (.error (failed e)) preps := by
  have hmem {c : Call j × Option Fault} (hc : ∀ s, c.1 ≠ .prepare s) : c ∉ preps := fun h =>
    let ⟨s, hs⟩ := hpreps c h
    hc s hs
  constructor
  case sent =>
    intro m recipients outcome hsent
    exact absurd hsent (hmem (by simp))
  case once =>
    rw [countP_preps hpreps]
    exact Nat.zero_le 1
  case closed =>
    intro hget
    exact absurd hget (hmem (by simp))
  case returns_iff =>
    apply iff_of_false (fun h => nomatch h)
    rintro ⟨⟨m, recipients, hsent⟩, _⟩
    exact hmem (by simp) hsent
  case masked =>
    intro cause hlast
    exact absurd (List.mem_of_getLast? hlast) (hmem (by simp))
  case thrown =>
    intro e' he'
    cases he'
    exact .inr (.inl ⟨e, rfl⟩)

theorem settled_of_case {r : Except SendException Unit} {calls : List (Call j × Option Fault)}
    (h : SendCase j util now contentId r calls) : Settled j util now contentId r calls := by
  cases h with
  | refused h => exact settled_of_refused h
  | notBuilt hpreps => exact settled_of_preps hpreps _
  | tried haccount hmail hmade hpreps => exact settled_of_attempt haccount hmail hmade hpreps _

end Settled

/-! ## 5. Many calls of `send` -/

/-- A call of `send`, with what it reads of the clock and of the random numbers. -/
structure Sending where
  util : MailUtil
  now : ℤ
  contentId : String

section Sendings

variable {j : JavaMail} (fails : Failures j)

def sendStep (w : World j) (sending : Sending) : Except SendException Unit × World j :=
  (sending.util.send fails sending.now sending.contentId).eval w

/-- Whatever is sent, in whatever order, and whatever fails: each call of `send` is settled by calls of
its own. -/
theorem sends_settled (sendings : List Sending) (w : World j) :
    ∃ sessions : List (List (Call j × Option Fault)),
      (Simulation.run (sendStep fails) w sendings).2.journal = w.journal ++ sessions.flatten ∧
      List.Forall₂
        (fun answered calls =>
          Settled j answered.1.util answered.1.now answered.1.contentId answered.2 calls)
        (Simulation.run (sendStep fails) w sendings).1 sessions := by
  induction sendings generalizing w with
  | nil => exact ⟨[], (List.append_nil _).symm, .nil⟩
  | cons sending sendings ih =>
    obtain ⟨calls, hjournal, hcase⟩ :=
      send_cases fails sending.util sending.now sending.contentId w
    obtain ⟨sessions, hrest, hsettled⟩ := ih (sendStep fails w sending).2
    refine ⟨calls :: sessions, ?_, .cons (settled_of_case hcase) hsettled⟩
    rw [Simulation.snd_run_cons, hrest, List.flatten_cons, ← List.append_assoc]
    exact congrArg (· ++ sessions.flatten) hjournal

end Sendings

end UtilsRepo.Mailing
