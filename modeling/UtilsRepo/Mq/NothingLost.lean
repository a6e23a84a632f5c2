import UtilsRepo.Mq.MessageServer

/-!
# No message is lost or settled twice

What holds of the message server whatever happens and in whatever order: where every message is, who has
settled which delivery, and how.  A listener whose every call throws leaves its message unacknowledged.
-/

namespace UtilsRepo.Mq

open RabbitMQConfig

variable {Body : Type} {converter : MessageConverter Body}

/-! ## 1. Where messages are -/

/-- The business queue and the dead queue. -/
def Bound (q : String) : Prop := q = mqProperties.topicQueue ∨ q = mqProperties.deadQueue

/-- The message is in the dead queue, with its consumer, or consumed from there. -/
def DeadLettered (b : MqBroker Body) (n : ℕ) : Prop :=
  ∃ p : Broker.Place String, p.queue = mqProperties.deadQueue ∧ (p, n) ∈ b.places

theorem topicQueue_ne_deadQueue : mqProperties.topicQueue ≠ mqProperties.deadQueue := by
  decide

theorem bound_hop {p p' : Broker.Place String} (h : Broker.Hop topology.deadLetter p p')
    (hp : Bound p.queue) : Bound p'.queue := by
  rcases h.queue with heq | hdead
  · rwa [heq]
  · rcases hp with htopic | hdeadQueue
    · rw [htopic, deadLetter_topicQueue] at hdead
      exact .inr (List.singleton_inj.mp hdead).symm
    · rw [hdeadQueue, deadLetter_deadQueue] at hdead
      cases hdead

/-- The dead queue dead-letters nothing. -/
theorem dead_hop {p p' : Broker.Place String} (h : Broker.Hop topology.deadLetter p p')
    (hp : p.queue = mqProperties.deadQueue) : p'.queue = mqProperties.deadQueue := by
  rcases h.queue with heq | hdead
  · rwa [heq]
  · rw [hp, deadLetter_deadQueue] at hdead
    cases hdead

/-- Each message published is in one place, and what was rejected is dead-lettered. -/
structure Placed (b : MqBroker Body) : Prop where
  numbers : (b.places.map Prod.snd).Perm (List.range b.messages.length)
  bound : ∀ e ∈ b.places, Bound e.1.queue
  rejected : ∀ d, (d, .rejected) ∈ b.settled → DeadLettered b d.message

theorem placed_empty : Placed (Broker.empty : MqBroker Body) :=
  ⟨List.Perm.refl _, by simp [Broker.places, Broker.empty, Broker.acked], by simp [Broker.empty]⟩

namespace Placed

variable {b b' : MqBroker Body}

theorem moves (h : Placed b) (hmoves : Broker.Moves topology.deadLetter b.places b'.places)
    (hmessages : b'.messages = b.messages)
    (hsettled : ∀ d, (d, .rejected) ∈ b'.settled →
      (d, .rejected) ∈ b.settled ∨ DeadLettered b' d.message) : Placed b' := by
  constructor
  case numbers =>
    rw [hmessages]
    exact hmoves.numbers.symm.trans h.numbers
  case bound => exact hmoves.forall (fun _ _ => bound_hop) h.bound
  case rejected =>
    intro d hd
    rcases hsettled d hd with hold | hnew
    · obtain ⟨p, hp, hmem⟩ := h.rejected d hold
      exact hmoves.stays (fun _ _ => dead_hop) hmem hp
    · exact hnew

theorem publish (h : Placed b) (m : Message Body) :
    Placed (b.publish [mqProperties.topicQueue] m) := by
  have hplaces := Broker.places_publish (b := b) [mqProperties.topicQueue] m
  constructor
  case numbers =>
    have hlength : (b.publish [mqProperties.topicQueue] m).messages.length = b.messages.length + 1 :=
      List.length_append
    rw [hlength, List.range_succ]
    calc
      List.Perm _ (b.messages.length :: b.places.map Prod.snd) := hplaces.map Prod.snd
      List.Perm _ (b.messages.length :: List.range b.messages.length) := h.numbers.cons _
      List.Perm _ _ := (List.perm_append_singleton ..).symm
  case bound =>
    intro e he
    rcases List.mem_cons.mp (hplaces.subset he) with rfl | hold
    · exact .inl rfl
    · exact h.bound e hold
  case rejected =>
    intro d hd
    obtain ⟨p, hp, hmem⟩ := h.rejected d hd
    exact ⟨p, hp, hplaces.symm.subset (List.mem_cons_of_mem _ hmem)⟩

theorem settle {d : Delivery String} {how : Settlement} (h : Placed b) (hcoherent : b.Coherent)
    (hd : d ∈ b.unacked) (hhow : how = .rejected → d.queue = mqProperties.topicQueue) :
    Placed (b.settle topology.deadLetter how (Broker.names d.channel d.tag false)) := by
  have hone := hcoherent.filter_names hd
  have hdead : how = .rejected → topology.deadLetter d.queue = [mqProperties.deadQueue] :=
    fun hrejected => by rw [hhow hrejected, deadLetter_topicQueue]
  apply h.moves (Broker.moves_settle hone fun hrejected => ⟨_, hdead hrejected⟩) rfl
  intro d' hd'
  rw [Broker.settled_settle, hone] at hd'
  rcases List.mem_cons.mp hd' with heq | hold
  · obtain ⟨rfl, rfl⟩ := Prod.mk.inj heq
    refine .inr ⟨.ready mqProperties.deadQueue, rfl, ?_⟩
    simp [Broker.places, Broker.settle, hone, hdead rfl]
  · exact .inl hold

/-- Every message is in exactly one place. -/
theorem unique (h : Placed b) {n : ℕ} (hn : n < b.messages.length) :
    ∃ p : Broker.Place String, Bound p.queue ∧ b.places.count (p, n) = 1 ∧
      ∀ p', (p', n) ∈ b.places → p' = p := by
  have hnodup : (b.places.map Prod.snd).Nodup := h.numbers.nodup_iff.mpr List.nodup_range
  obtain ⟨⟨p, _⟩, hmem, rfl⟩ := List.mem_map.mp (h.numbers.symm.subset (List.mem_range.mpr hn))
  refine ⟨p, h.bound _ hmem, List.count_eq_one_of_mem hnodup.of_map hmem, ?_⟩
  intro p' hmem'
  exact congrArg Prod.fst (List.inj_on_of_nodup_map hnodup hmem' hmem rfl)

end Placed

/-! ## 2. What listeners have done -/

/-- How a listener may settle a delivery. -/
def Allowed (converter : MessageConverter Body) (queue : String) (message : Message Body) :
    Settlement → Prop :=
  if queue = mqProperties.deadQueue then fun how => how = .acked
  else fun how => how = .acked ∧ Accepted converter message ∨ how = .rejected

theorem settlesOnce_listener {d : Delivery String} {queue : String}
    {listen : Message Body → ℕ → ℕ → Call Body Unit}
    (h : TestReceiver.listener converter queue = some listen) (message : Message Body) :
    SettlesOnce d (Allowed converter queue message) (listen message d.channel d.tag) := by
  unfold TestReceiver.listener at h
  split at h
  · rename_i hqueue
    cases h
    rw [Allowed, if_pos (show queue = mqProperties.deadQueue from hqueue)]
    exact settlesOnce_deadQueueMonitorProcess
  · rename_i hqueue
    split at h
    · cases h
      rw [Allowed, if_neg (show queue ≠ mqProperties.deadQueue from hqueue)]
      exact settlesOnce_process converter message
    · cases h

/-- Either nothing is settled yet, and it is as if the invocation were about to begin, or it has ended
and settled its delivery. -/
inductive Progress (converter : MessageConverter Body) (b : MqBroker Body) (inv : Invocation Body) :
    Prop where
  | pending (nothing : inv.settled = []) (unsettled : inv.delivery ∉ b.settled.map Prod.fst)
      (once : SettlesOnce inv.delivery (Allowed converter inv.delivery.queue inv.message) inv.call)
  | settled (how : Settlement) (allowed : Allowed converter inv.delivery.queue inv.message how)
      (own : inv.settled = [(inv.delivery, how)]) (recorded : (inv.delivery, how) ∈ b.settled)
      (ended : inv.call = .done (.ok ()))

structure InvocationSound (converter : MessageConverter Body) (b : MqBroker Body)
    (inv : Invocation Body) : Prop where
  message : b.messages[inv.delivery.message]? = some inv.message
  progress : Progress converter b inv

/-- What happens to other deliveries does not matter. -/
theorem InvocationSound.mono {b b' : MqBroker Body} {inv : Invocation Body}
    (h : InvocationSound converter b inv) (hmessages : b.messages <+: b'.messages)
    (hsettled : ∀ how, (inv.delivery, how) ∈ b'.settled ↔ (inv.delivery, how) ∈ b.settled) :
    InvocationSound converter b' inv := by
  constructor
  case message =>
    obtain ⟨more, hmore⟩ := hmessages
    obtain ⟨hlt, -⟩ := List.getElem?_eq_some_iff.mp h.message
    rw [← hmore, List.getElem?_append_left hlt]
    exact h.message
  case progress =>
    cases h.progress with
    | pending nothing unsettled once =>
      refine .pending nothing (fun hmem => unsettled ?_) once
      obtain ⟨⟨d, how⟩, hmem, rfl⟩ := List.mem_map.mp hmem
      exact List.mem_map_of_mem ((hsettled how).mp hmem)
    | settled how allowed own recorded ended =>
      exact .settled how allowed own ((hsettled how).mpr recorded) ended

theorem InvocationSound.retry {b : MqBroker Body} {inv : Invocation Body}
    (h : InvocationSound converter b inv) :
    InvocationSound converter b (inv.retry converter) := by
  unfold Invocation.retry
  split
  · rename_i hresult hlisten
    split
    · refine ⟨h.message, ?_⟩
      cases h.progress with
      | pending nothing unsettled once =>
        exact .pending nothing unsettled (settlesOnce_listener hlisten inv.message)
      | settled how allowed own recorded ended =>
        rw [ended] at hresult
        cases hresult
    · exact h
  · exact h

@[simp] theorem delivery_retry (inv : Invocation Body) :
    (inv.retry converter).delivery = inv.delivery := by
  unfold Invocation.retry
  split
  · split <;> rfl
  · rfl

/-! ## 3. Steps -/

structure Sound (converter : MessageConverter Body) (s : MessageServer Body) : Prop where
  coherent : s.broker.Coherent
  placed : Placed s.broker
  /-- Each delivery has its invocation. -/
  delivered : s.invocations.map Invocation.delivery = s.broker.delivered
  invocations : ∀ (i : ℕ) inv, s.invocations[i]? = some inv → InvocationSound converter s.broker inv

namespace Sound

variable {s : MessageServer Body}

theorem start : Sound converter (MessageServer.start : MessageServer Body) :=
  ⟨Broker.coherent_empty, placed_empty, rfl, by simp [MessageServer.start]⟩

/-- What the broker does on its own leaves the invocations as they are. -/
theorem withBroker (h : Sound converter s) {b : MqBroker Body} (hcoherent : b.Coherent)
    (hplaced : Placed b) (hdelivered : b.delivered = s.broker.delivered)
    (hsettled : b.settled = s.broker.settled) (hmessages : s.broker.messages <+: b.messages) :
    Sound converter { s with broker := b } := by
  refine ⟨hcoherent, hplaced, h.delivered.trans hdelivered.symm, ?_⟩
  intro i inv hinv
  exact (h.invocations i inv hinv).mono hmessages fun how => by rw [hsettled]

theorem send (h : Sound converter s) (message : Message Body) :
    Sound converter (s.step converter (.send message)) := by
  simp only [MessageServer.step, route_topicQueue]
  exact h.withBroker (h.coherent.congr rfl rfl rfl rfl) (h.placed.publish message) rfl rfl
    (List.prefix_append ..)

theorem moves (h : Sound converter s) {b : MqBroker Body} (hcoherent : b.Coherent)
    (hmoves : Broker.Moves topology.deadLetter s.broker.places b.places)
    (hmessages : b.messages = s.broker.messages) (hdelivered : b.delivered = s.broker.delivered)
    (hsettled : b.settled = s.broker.settled) : Sound converter { s with broker := b } := by
  apply h.withBroker hcoherent _ hdelivered hsettled (hmessages ▸ List.prefix_refl _)
  exact h.placed.moves hmoves hmessages fun d hd => .inl (hsettled ▸ hd)

theorem expire (h : Sound converter s) (queue : String) (n : ℕ) :
    Sound converter (s.step converter (.expire queue n)) := by
  simp only [MessageServer.step]
  split
  · rename_i hexpires
    by_cases hready : (queue, n) ∈ s.broker.ready
    · rcases h.placed.bound _ (Broker.place_of_ready hready) with htopic | hdead
      · obtain rfl : queue = mqProperties.topicQueue := htopic
        have hmoves := Broker.moves_expire deadLetter_topicQueue hready
        have hcoherent : (s.broker.expire topology.deadLetter mqProperties.topicQueue n).Coherent :=
          h.coherent.expire ..
        rw [Broker.expire, if_pos hready] at hmoves hcoherent ⊢
        exact h.moves hcoherent hmoves rfl rfl rfl
      · obtain rfl : queue = mqProperties.deadQueue := hdead
        rw [expires_deadQueue] at hexpires
        cases hexpires
    · rw [Broker.expire, if_neg hready]
      exact h
  · exact h

theorem lose (h : Sound converter s) (channels : List ℕ) :
    Sound converter (s.step converter (.lose channels)) :=
  h.moves (h.coherent.lose channels) (Broker.moves_lose channels) rfl rfl rfl

theorem failing (h : Sound converter s) (failing : Bool) :
    Sound converter { s with broker := { s.broker with failing } } :=
  h.moves (h.coherent.congr rfl rfl rfl rfl) (Broker.Moves.refl _) rfl rfl rfl

/-- A step of one invocation. -/
theorem update (h : Sound converter s) {b : MqBroker Body} (hcoherent : b.Coherent)
    (hplaced : Placed b) (hdelivered : b.delivered = s.broker.delivered) {i : ℕ}
    {inv inv' : Invocation Body} (hinv : s.invocations[i]? = some inv)
    (hdelivery : inv'.delivery = inv.delivery) (hsound : InvocationSound converter b inv')
    (hothers : ∀ other, InvocationSound converter s.broker other → other.delivery ≠ inv.delivery →
      InvocationSound converter b other) :
    Sound converter ⟨b, s.invocations.set i inv'⟩ := by
  have hi : (s.invocations.map Invocation.delivery)[i]? = some inv.delivery := by
    rw [List.getElem?_map, hinv, Option.map_some]
  obtain ⟨hlt, hget⟩ := List.getElem?_eq_some_iff.mp hi
  refine ⟨hcoherent, hplaced, ?_, ?_⟩
  · calc
      _ = (s.invocations.map Invocation.delivery).set i inv.delivery := by
        rw [List.map_set, hdelivery]
      _ = s.invocations.map Invocation.delivery := by
        rw [← hget, List.set_getElem_self]
      _ = b.delivered := by
        rw [h.delivered, hdelivered]
  · intro j other hj
    rw [List.getElem?_set] at hj
    split at hj
    · split at hj
      · obtain rfl := Option.some.inj hj
        exact hsound
      · cases hj
    · rename_i hij
      apply hothers other (h.invocations j other hj)
      intro heq
      have hsame : (s.invocations.map Invocation.delivery)[j]? = some inv.delivery := by
        rw [List.getElem?_map, hj, Option.map_some, heq]
      have hnodup : (s.invocations.map Invocation.delivery).Nodup :=
        h.delivered ▸ h.coherent.tags.of_map
      exact hij ((List.getElem?_inj hlt hnodup).mp (hi.trans hsame.symm))

theorem retry (h : Sound converter s) (i : ℕ) : Sound converter (s.step converter (.retry i)) := by
  simp only [MessageServer.step, MessageServer.retry]
  split
  · exact h
  · rename_i inv hinv
    exact h.update h.coherent h.placed rfl hinv (delivery_retry inv) (h.invocations i inv hinv).retry
      fun _ hother _ => hother

theorem owned (h : Sound converter s) {inv : Invocation Body} (hinv : inv ∈ s.invocations)
    (hunsettled : inv.delivery ∉ s.broker.settled.map Prod.fst) : Owned inv.delivery s.broker := by
  have hdelivered : inv.delivery ∈ s.broker.delivered := h.delivered ▸ List.mem_map_of_mem hinv
  exact (h.coherent.accounted _ hdelivered).imp_right fun hor => hor.resolve_left hunsettled

/-- An invocation's next call leaves everything as it is, or settles the delivery and ends it. -/
theorem resume_cases (h : Sound converter s) {i : ℕ} {inv : Invocation Body}
    {act : MqBroker Body → MqBroker Body} {next : MqBroker Body → Call Body Unit}
    (hinv : s.invocations[i]? = some inv) (hcall : inv.call = .step act next) :
    inv.settled = [] ∧ inv.delivery ∉ s.broker.settled.map Prod.fst ∧
      ((Idle s.broker (act s.broker) ∧
        SettlesOnce inv.delivery (Allowed converter inv.delivery.queue inv.message) (next s.broker)) ∨
      (Settles inv.delivery (Allowed converter inv.delivery.queue inv.message) s.broker
        (act s.broker) ∧ next s.broker = .done (.ok ()))) := by
  cases (h.invocations i inv hinv).progress with
  | pending nothing unsettled once =>
    rw [hcall] at once
    have howned := h.owned (List.mem_of_getElem? hinv) unsettled
    refine ⟨nothing, unsettled, (once s.broker howned).imp_right fun hcommit => ?_⟩
    obtain ⟨hsettles, ⟨⟩, hnext⟩ := hcommit
    exact ⟨hsettles, hnext⟩
  | settled how allowed own recorded ended =>
    rw [ended] at hcall
    cases hcall

/-- Only what came from the business queue may be rejected. -/
theorem queue_of_rejected (h : Sound converter s) {d : Delivery String} {message : Message Body}
    (hd : d ∈ s.broker.unacked) (hallowed : Allowed converter d.queue message .rejected) :
    d.queue = mqProperties.topicQueue := by
  apply (h.placed.bound _ (Broker.place_of_unacked hd)).resolve_right
  intro hdead
  rw [Allowed, if_pos (show d.queue = mqProperties.deadQueue from hdead)] at hallowed
  cases hallowed

theorem handOut (h : Sound converter s) (queue : String) (n channel : ℕ) :
    Sound converter (s.step converter (.handOut queue n channel)) := by
  simp only [MessageServer.step, MessageServer.handOut]
  split
  · rename_i listen message d broker hlisten hmessage hout
    have hcoherent := h.coherent.handOut hout
    have hmoves : Broker.Moves topology.deadLetter s.broker.places broker.places :=
      Broker.moves_handOut hout
    obtain ⟨-, -, hd, rfl⟩ := Broker.handOut_cases hout
    refine ⟨hcoherent, h.placed.moves hmoves rfl fun _ => .inl, ?_, ?_⟩
    · rw [List.map_append, h.delivered]
      rfl
    · intro i inv hinv
      rw [List.getElem?_append] at hinv
      split at hinv
      · exact (h.invocations i inv hinv).mono (List.prefix_refl _) fun _ => Iff.rfl
      · obtain rfl := List.mem_singleton.mp (List.mem_of_getElem? hinv)
        refine ⟨by rw [hd]; exact hmessage, .pending rfl ?_ ?_⟩
        · -- the tag is new
          exact fun hmem => (List.nodup_cons.mp hcoherent.nodup).1 (List.mem_append_right _ hmem)
        · rw [hd]
          exact settlesOnce_listener hlisten message
  · exact h

theorem resume (h : Sound converter s) (i : ℕ) : Sound converter (s.step converter (.resume i)) := by
  simp only [MessageServer.step, MessageServer.resume]
  split
  · exact h
  · rename_i inv hinv
    have hmessage := (h.invocations i inv hinv).message
    split
    · exact h
    · rename_i act next hcall
      obtain ⟨hnothing, hunsettled, hstep⟩ := h.resume_cases hinv hcall
      rcases hstep with ⟨⟨failing, hact⟩, honce⟩ | ⟨⟨how, hallowed, hd, hact⟩, hnext⟩
      · rw [hact, hnothing]
        refine h.update (h.failing failing).coherent (h.failing failing).placed rfl hinv ?_ ?_ ?_
        · rfl
        · exact ⟨hmessage, .pending (by simp [newlySettled]) hunsettled honce⟩
        · exact fun other hother _ => hother.mono (List.prefix_refl _) fun _ => Iff.rfl
      · have hone := h.coherent.filter_names hd
        rw [hact, hnothing, hnext]
        have hqueue : how = .rejected → inv.delivery.queue = mqProperties.topicQueue := by
          rintro rfl
          exact h.queue_of_rejected hd hallowed
        refine h.update (h.coherent.settle how _) (h.placed.settle h.coherent hd hqueue) rfl hinv
          ?_ ?_ ?_
        · rfl
        · refine ⟨hmessage, .settled how hallowed ?_ ?_ rfl⟩
          · simp [newlySettled, Broker.settled_settle, hone]
          · simp [Broker.settled_settle, hone]
        · intro other hother hne
          refine hother.mono (List.prefix_refl _) fun how' => ?_
          simp [Broker.settled_settle, hone, hne]

theorem step (h : Sound converter s) (event : Event Body) :
    Sound converter (s.step converter event) := by
  cases event with
  | send message => exact h.send message
  | handOut queue n channel => exact h.handOut queue n channel
  | expire queue n => exact h.expire queue n
  | lose channels => exact h.lose channels
  | fail => exact h.failing true
  | resume i => exact h.resume i
  | retry i => exact h.retry i

/-- What is settled stays settled. -/
theorem settled_subset (h : Sound converter s) (event : Event Body) :
    s.broker.settled ⊆ (s.step converter event).broker.settled := by
  cases event with
  | send message | lose channels | fail => exact List.Subset.refl _
  | expire queue n =>
    simp only [MessageServer.step, Broker.expire]
    split
    · split <;> exact List.Subset.refl _
    · exact List.Subset.refl _
  | retry i =>
    simp only [MessageServer.step, MessageServer.retry]
    split <;> exact List.Subset.refl _
  | handOut queue n channel =>
    simp only [MessageServer.step, MessageServer.handOut]
    split
    · rename_i hout
      obtain ⟨-, -, -, rfl⟩ := Broker.handOut_cases hout
      exact List.Subset.refl _
    · exact List.Subset.refl _
  | resume i =>
    simp only [MessageServer.step, MessageServer.resume]
    split
    · exact List.Subset.refl _
    · rename_i inv hinv
      split
      · exact List.Subset.refl _
      · rename_i act next hcall
        obtain ⟨-, -, ⟨⟨failing, hact⟩, -⟩ | ⟨⟨how, -, -, hact⟩, -⟩⟩ := h.resume_cases hinv hcall
        · rw [hact]
          exact List.Subset.refl _
        · rw [hact]
          exact List.subset_append_right ..

theorem run (h : Sound converter s) (events : List (Event Body)) :
    Sound converter (events.foldl (MessageServer.step converter) s) ∧
      s.broker.settled ⊆ (events.foldl (MessageServer.step converter) s).broker.settled := by
  induction events generalizing s with
  | nil => exact ⟨h, List.Subset.refl _⟩
  | cons event events ih =>
    obtain ⟨hsound, hsubset⟩ := ih (h.step event)
    exact ⟨hsound, List.Subset.trans (h.settled_subset event) hsubset⟩

theorem invocation_of_settled (h : Sound converter s) {d : Delivery String} {how : Settlement}
    (hd : (d, how) ∈ s.broker.settled) :
    ∃ inv ∈ s.invocations, inv.settled = [(d, how)] ∧ inv.delivery = d ∧
      Allowed converter d.queue inv.message how ∧
      s.broker.messages[d.message]? = some inv.message := by
  have hfst : d ∈ s.broker.settled.map Prod.fst := List.mem_map_of_mem (f := Prod.fst) hd
  have hdelivered := h.coherent.delivered d (List.mem_append_right _ hfst)
  rw [← h.delivered] at hdelivered
  obtain ⟨inv, hinv, rfl⟩ := List.mem_map.mp hdelivered
  obtain ⟨i, hi⟩ := List.mem_iff_getElem?.mp hinv
  obtain ⟨hmessage, hprogress⟩ := h.invocations i inv hi
  cases hprogress with
  | pending nothing unsettled once => exact absurd hfst unsettled
  | settled how' allowed own recorded ended =>
    have hnodup := (List.nodup_append.mp h.coherent.nodup).2.1
    obtain ⟨-, rfl⟩ := Prod.mk.inj (List.inj_on_of_nodup_map hnodup hd recorded rfl)
    exact ⟨inv, hinv, own, rfl, allowed, hmessage⟩

end Sound

/-! ## 4. Runs -/

/-- The places a business message can be in. -/
def businessPlaces : List (Broker.Place String) :=
  [.ready mqProperties.topicQueue, .unacked mqProperties.topicQueue, .acked mqProperties.topicQueue,
    .ready mqProperties.deadQueue, .unacked mqProperties.deadQueue, .acked mqProperties.deadQueue]

theorem mem_businessPlaces {p : Broker.Place String} (hp : Bound p.queue) : p ∈ businessPlaces := by
  cases p with
  | ready q | unacked q | acked q =>
    rcases hp with hq | hq <;> obtain rfl : q = _ := hq <;> simp [businessPlaces]

structure NothingLost (converter : MessageConverter Body) (s : MessageServer Body) : Prop where
  /-- Each message published is in exactly one place. -/
  place : ∀ n < s.broker.messages.length, ∃ p ∈ businessPlaces, s.broker.places.count (p, n) = 1 ∧
    ∀ p', (p', n) ∈ s.broker.places → p' = p
  /-- Only what is accepted is acknowledged; anything else goes to the dead queue, nothing back. -/
  settled : ∀ d how, (d, how) ∈ s.broker.settled → d.queue = mqProperties.topicQueue →
    (how = .acked ∧ ∃ m, s.broker.messages[d.message]? = some m ∧ Accepted converter m) ∨
      how = .rejected ∧ DeadLettered s.broker d.message
  /-- The dead queue does not give back what it got. -/
  stays : ∀ d, (d, .rejected) ∈ s.broker.settled → ∀ events : List (Event Body),
    DeadLettered (events.foldl (MessageServer.step converter) s).broker d.message
  once : (s.broker.settled.map Prod.fst).Nodup
  /-- Nobody but the listeners settles anything. -/
  recorded : ∀ e ∈ s.broker.settled, ∃ inv ∈ s.invocations, e ∈ inv.settled
  message : ∀ inv ∈ s.invocations, s.broker.messages[inv.delivery.message]? = some inv.message
  own : ∀ inv ∈ s.invocations, inv.settled.length ≤ 1 ∧
    ∀ e ∈ inv.settled, e.1 = inv.delivery ∧ e ∈ s.broker.settled
  /-- An invocation that returns has settled its delivery. -/
  returned : ∀ inv ∈ s.invocations, inv.call.result = some (.ok ()) →
    inv.delivery.queue = mqProperties.topicQueue → ¬ Accepted converter inv.message →
      inv.settled = [(inv.delivery, .rejected)] ∧ DeadLettered s.broker inv.delivery.message
  /-- One that throws has not: the consumer still has it, or it went with its channel. -/
  threw : ∀ inv ∈ s.invocations, ∀ e, inv.call.result = some (.error e) →
    inv.settled = [] ∧ Owned inv.delivery s.broker

theorem allowed_topicQueue {message : Message Body} {how : Settlement}
    (h : Allowed converter mqProperties.topicQueue message how) :
    how = .acked ∧ Accepted converter message ∨ how = .rejected := by
  rwa [Allowed, if_neg topicQueue_ne_deadQueue] at h

theorem Sound.nothingLost {s : MessageServer Body} (h : Sound converter s) :
    NothingLost converter s := by
  have hinvocation : ∀ inv ∈ s.invocations, InvocationSound converter s.broker inv := by
    intro inv hinv
    obtain ⟨i, hi⟩ := List.mem_iff_getElem?.mp hinv
    exact h.invocations i inv hi
  constructor
  case place =>
    intro n hn
    obtain ⟨p, hbound, hcount, honly⟩ := h.placed.unique hn
    exact ⟨p, mem_businessPlaces hbound, hcount, honly⟩
  case settled =>
    intro d how hd hqueue
    obtain ⟨inv, -, -, -, hallowed, hmessage⟩ := h.invocation_of_settled hd
    rw [hqueue] at hallowed
    rcases allowed_topicQueue hallowed with ⟨rfl, haccepted⟩ | rfl
    · exact .inl ⟨rfl, inv.message, hmessage, haccepted⟩
    · exact .inr ⟨rfl, h.placed.rejected d hd⟩
  case stays =>
    intro d hd events
    obtain ⟨hsound, hsubset⟩ := h.run events
    exact hsound.placed.rejected d (hsubset hd)
  case once => exact (List.nodup_append.mp h.coherent.nodup).2.1
  case recorded =>
    rintro ⟨d, how⟩ hd
    obtain ⟨inv, hinv, hsettled, -⟩ := h.invocation_of_settled hd
    exact ⟨inv, hinv, hsettled ▸ List.mem_singleton.mpr rfl⟩
  case message => exact fun inv hinv => (hinvocation inv hinv).message
  case own =>
    intro inv hinv
    cases (hinvocation inv hinv).progress with
    | pending nothing unsettled once => simp [nothing]
    | settled how allowed own recorded ended => simp [own, recorded]
  case returned =>
    intro inv hinv hresult hqueue hnot
    cases (hinvocation inv hinv).progress with
    | pending nothing unsettled once =>
      -- an invocation that has settled nothing has not returned
      cases hcall : inv.call with
      | step act next =>
        rw [hcall] at hresult
        cases hresult
      | done r =>
        rw [hcall] at hresult once
        cases hresult
        exact once.elim
    | settled how allowed own recorded ended =>
      rw [hqueue] at allowed
      rcases allowed_topicQueue allowed with ⟨-, haccepted⟩ | rfl
      · exact absurd haccepted hnot
      · exact ⟨own, h.placed.rejected _ recorded⟩
  case threw =>
    intro inv hinv e hresult
    cases (hinvocation inv hinv).progress with
    | pending nothing unsettled once => exact ⟨nothing, h.owned hinv unsettled⟩
    | settled how allowed own recorded ended =>
      rw [ended] at hresult
      cases hresult

/-- Whatever happens, in whatever order, no message is lost and none is settled twice. -/
theorem nothing_lost (converter : MessageConverter Body) (events : List (Event Body)) :
    NothingLost converter (MessageServer.run converter events) :=
  (Sound.start.run events).1.nothingLost

/-- A converter for bodies that say whether they are lists. -/
def listConverter : MessageConverter Bool where
  fromMessage message :=
    if message.body then .ok (.list []) else .error ⟨.messageConversionException, none⟩
  fromMessage_ne_null message := by
    intro h
    split at h <;> cases h

example : (MessageServer.run listConverter [.send ⟨true, some "id"⟩, .send ⟨false, some "id"⟩,
    .handOut "topic.queue.t1" 1 0, .handOut "topic.queue.t1" 0 0, .resume 0, .resume 1,
    .handOut "dead.queue" 1 2, .resume 2]).broker.places =
      [(.acked "dead.queue", 1), (.acked "topic.queue.t1", 0)] := by
  decide

-- each attempt nacks, rejects what the nack threw, and both calls throw
def throwingEvents : List (Event Bool) :=
  [.send ⟨true, none⟩, .handOut "topic.queue.t1" 0 0] ++
    (List.replicate maxAttempts [.fail, .resume 0, .fail, .resume 0, .retry 0]).flatten

/-- Where rejecting throws too, a message without an id does not go to the dead queue. -/
theorem not_deadLettered_of_throws :
    ∃ inv ∈ (MessageServer.run listConverter throwingEvents).invocations,
      inv.call.result.isSome ∧ ¬ Accepted listConverter inv.message ∧
        ¬ DeadLettered (MessageServer.run listConverter throwingEvents).broker
          inv.delivery.message := by
  have hplaces : (MessageServer.run listConverter throwingEvents).broker.places =
      [(.unacked mqProperties.topicQueue, 0)] := by
    decide
  have hnot : ¬ DeadLettered (MessageServer.run listConverter throwingEvents).broker 0 := by
    rintro ⟨p, hp, hmem⟩
    rw [hplaces] at hmem
    cases List.mem_singleton.mp hmem
    exact topicQueue_ne_deadQueue hp
  exact ⟨_, List.mem_singleton.mpr rfl, by decide, fun haccepted => haccepted.2 rfl, hnot⟩

end UtilsRepo.Mq
