import Mathlib.Algebra.BigOperators.Group.List.Basic
import Mathlib.Algebra.GroupWithZero.Nat
import Mathlib.Data.Fintype.EquivFin
import UtilsRepo.Mq.NothingLost

/-!
# The queues can be worked off

Whatever has happened, once the consumers are started anew with channels that stay up nothing is left
over: message after message is handed out and settled, and in the end each is acknowledged, on the
business queue where it is accepted and on the dead queue where it is not.
-/

namespace UtilsRepo.Mq

open RabbitMQConfig

variable {Body : Type} {converter : MessageConverter Body}

/-! ## 1. A listener's first call -/

/-- The call settles a delivery with its next step. -/
def Starts (how : Settlement) (channel tag : ℕ) (call : Call Body Unit) : Prop :=
  ∃ next, call = .step (fun b => (b.call topology.deadLetter how channel tag false).2) next

theorem starts_settle (how : Settlement) (channel tag : ℕ) :
    Starts how channel tag (Channel.settle how channel tag false : Call Body Unit) := by
  refine ⟨_, congrArg₂ Process.step (funext fun b => ?_) rfl⟩
  rw [Fallible.eval_ofStep]
  generalize b.call topology.deadLetter how channel tag false = r
  obtain ⟨refusal | _, b'⟩ := r
  · cases refusal <;> rfl
  · rfl

theorem Starts.tryCatch {how : Settlement} {channel tag : ℕ} {call : Call Body Unit}
    {handler : JavaException → Call Body Unit} (h : Starts how channel tag call) :
    Starts how channel tag (tryCatch call handler) := by
  obtain ⟨next, rfl⟩ := h
  exact ⟨_, rfl⟩

/-- What a listener does with a message from its queue when nothing fails. -/
inductive Verdict (accepted : Prop) : String → Settlement → Prop where
  | consumed (yes : accepted) : Verdict accepted mqProperties.topicQueue .acked
  | refused (no : ¬ accepted) : Verdict accepted mqProperties.topicQueue .rejected
  | monitored : Verdict accepted mqProperties.deadQueue .acked

theorem process_starts (converter : MessageConverter Body) (message : Message Body)
    (channel tag : ℕ) :
    ∃ how, Verdict (Accepted converter message) mqProperties.topicQueue how ∧
      Starts how channel tag (TestReceiver.process converter message channel tag) := by
  have hrefused (no : ¬ Accepted converter message) (call : Call Body Unit)
      (hcall : Starts .rejected channel tag call) :
      ∃ how, Verdict (Accepted converter message) mqProperties.topicQueue how ∧
        Starts how channel tag call := ⟨.rejected, .refused no, hcall⟩
  unfold TestReceiver.process
  cases hfrom : converter.fromMessage message with
  | error e =>
    apply hrefused
    · rintro ⟨⟨elements, helements⟩, -⟩
      rw [hfrom] at helements
      cases helements
    · exact starts_settle .rejected channel tag
  | ok o =>
    cases hcast : castList o with
    | error e =>
      apply hrefused
      · rintro ⟨⟨elements, helements⟩, -⟩
        rw [hfrom] at helements
        cases helements
        cases hcast
      · show Starts .rejected channel tag (tryCatch (Process.done (castList o) >>= _) _)
        rw [hcast]
        exact starts_settle .rejected channel tag
    | ok list =>
      show ∃ how, _ ∧ Starts how channel tag (tryCatch (Process.done (castList o) >>= fun _ =>
        if message.messageId.isNone then Channel.basicNack channel tag false false
        else Channel.basicAck channel tag false) _)
      rw [hcast]
      show ∃ how, _ ∧ Starts how channel tag (tryCatch
        (if message.messageId.isNone then Channel.basicNack channel tag false false
        else Channel.basicAck channel tag false) _)
      split
      · rename_i hid
        apply hrefused
        · rintro ⟨-, hsome⟩
          exact hsome (Option.isNone_iff_eq_none.mp hid)
        · exact (starts_settle .rejected channel tag).tryCatch
      · rename_i hid
        refine ⟨.acked, .consumed ⟨castList_ok hfrom hcast, ?_⟩, ?_⟩
        · exact fun hnone => hid (Option.isNone_iff_eq_none.mpr hnone)
        · exact (starts_settle .acked channel tag).tryCatch

/-- Both queues in use have their listener, and each begins with the call that settles. -/
theorem listener_starts (converter : MessageConverter Body) {queue : String} (hqueue : Bound queue)
    (message : Message Body) :
    ∃ listen, TestReceiver.listener converter queue = some listen ∧ ∀ channel tag, ∃ how,
      Verdict (Accepted converter message) queue how ∧
        Starts how channel tag (listen message channel tag) := by
  rcases hqueue with rfl | rfl
  · exact ⟨TestReceiver.process converter, rfl, process_starts converter message⟩
  · exact ⟨fun _ => TestReceiver.deadQueueMonitorProcess, rfl,
      fun channel tag => ⟨.acked, .monitored, starts_settle .acked channel tag⟩⟩

/-! ## 2. Where messages end -/

/-- The queue in which a message is acknowledged, from the place it is in now. -/
def Ends (accepted : Prop) (p : Broker.Place String) (queue : String) : Prop :=
  match p with
  | .acked q => queue = q
  | .ready q | .unacked q =>
      if q = mqProperties.deadQueue then queue = mqProperties.deadQueue
      else accepted ∧ queue = mqProperties.topicQueue ∨ ¬ accepted ∧ queue = mqProperties.deadQueue

/-- Nothing has happened that changes where a message ends. -/
structure Onward (converter : MessageConverter Body) (b b' : MqBroker Body) : Prop where
  messages : b'.messages = b.messages
  ends : ∀ n m, b.messages[n]? = some m → ∀ p, (p, n) ∈ b.places →
    ∃ p', (p', n) ∈ b'.places ∧
      ∀ queue, Ends (Accepted converter m) p' queue → Ends (Accepted converter m) p queue

theorem Onward.refl (b : MqBroker Body) : Onward converter b b :=
  ⟨rfl, fun _ _ _ p hp => ⟨p, hp, fun _ hends => hends⟩⟩

theorem Onward.trans {b b' b'' : MqBroker Body} (h : Onward converter b b')
    (h' : Onward converter b' b'') : Onward converter b b'' := by
  refine ⟨h'.messages.trans h.messages, fun n m hm p hp => ?_⟩
  obtain ⟨p', hp', hends⟩ := h.ends n m hm p hp
  obtain ⟨p'', hp'', hends'⟩ := h'.ends n m (h.messages ▸ hm) p' hp'
  exact ⟨p'', hp'', fun queue hqueue => hends queue (hends' queue hqueue)⟩

theorem mem_places {b : MqBroker Body} {p : Broker.Place String} {n : ℕ} :
    (p, n) ∈ b.places ↔
      match p with
      | .ready q => (q, n) ∈ b.ready
      | .unacked q => ∃ d ∈ b.unacked, d.queue = q ∧ d.message = n
      | .acked q => ∃ d, (d, .acked) ∈ b.settled ∧ d.queue = q ∧ d.message = n := by
  cases p <;> simp [Broker.places, Broker.acked, and_assoc]

theorem acked_of_nothing_waiting {b : MqBroker Body} (hready : b.ready = []) (hunacked : b.unacked = [])
    {p : Broker.Place String} {n : ℕ} (hp : (p, n) ∈ b.places) : ∃ q, p = .acked q := by
  rw [mem_places] at hp
  cases p with
  | ready q =>
    rw [hready] at hp
    cases hp
  | unacked q =>
    obtain ⟨d, hd, -⟩ := hp
    rw [hunacked] at hd
    cases hd
  | acked q => exact ⟨q, rfl⟩

/-- Which of its queue's places a message is in matters only when it is acknowledged. -/
theorem onward_of_waiting {b b' : MqBroker Body} (hmessages : b'.messages = b.messages)
    (hsettled : b.settled ⊆ b'.settled)
    (hready : ∀ q n, (q, n) ∈ b.ready → (.ready q, n) ∈ b'.places ∨ (.unacked q, n) ∈ b'.places)
    (hunacked : ∀ d ∈ b.unacked,
      (.ready d.queue, d.message) ∈ b'.places ∨ (.unacked d.queue, d.message) ∈ b'.places) :
    Onward converter b b' := by
  refine ⟨hmessages, fun n m hm p hp => ?_⟩
  rw [mem_places] at hp
  cases p with
  | ready q =>
    rcases hready q n hp with hp' | hp' <;> exact ⟨_, hp', fun _ hends => hends⟩
  | unacked q =>
    obtain ⟨d, hd, rfl, rfl⟩ := hp
    rcases hunacked d hd with hp' | hp' <;> exact ⟨_, hp', fun _ hends => hends⟩
  | acked q =>
    obtain ⟨d, hd, hqueue, hmessage⟩ := hp
    exact ⟨.acked q, mem_places.mpr ⟨d, hsettled hd, hqueue, hmessage⟩, fun _ hends => hends⟩

/-! ## 3. One message at a time -/

/-- What consumers do of their own accord: they take messages, call, and drop their connection as when
they are started anew.  A message whose listener threw at every attempt stays with it until its channel
goes. -/
inductive Consuming : Event Body → Prop where
  | handOut (queue : String) (message channel : ℕ) : Consuming (.handOut queue message channel)
  | lose (channels : List ℕ) : Consuming (.lose channels)
  | resume (invocation : ℕ) : Consuming (.resume invocation)

/-- A message handed out, before its listener has called. -/
def taken (b : MqBroker Body) (d : Delivery String) : MqBroker Body :=
  { b with
    ready := b.ready.erase (d.queue, d.message)
    unacked := d :: b.unacked
    delivered := b.delivered ++ [d] }

/-- A message is handed out, and its listener makes its first call. -/
theorem handOut_resume {s : MessageServer Body} (h : Sound converter s) {queue : String} {n channel : ℕ}
    (hready : (queue, n) ∈ s.broker.ready) (hopen : channel ∉ s.broker.closed) :
    ∃ m how d, s.broker.messages[n]? = some m ∧ Verdict (Accepted converter m) queue how ∧
      d.queue = queue ∧ d.message = n ∧ d.channel = channel ∧
      ([.handOut queue n channel, .resume s.invocations.length].foldl
        (MessageServer.step converter) s).broker =
          ((taken s.broker d).call topology.deadLetter how d.channel d.tag false).2 := by
  have hplace := Broker.place_of_ready hready
  have hn : n < s.broker.messages.length :=
    List.mem_range.mp (h.placed.numbers.subset (List.mem_map_of_mem (f := Prod.snd) hplace))
  have hbound : Bound queue := h.placed.bound _ hplace
  obtain ⟨listen, hlisten, hstarts⟩ := listener_starts converter hbound s.broker.messages[n]
  let d : Delivery String := ⟨channel, s.broker.lastTag channel + 1, queue, n⟩
  obtain ⟨how, hverdict, next, hcall⟩ := hstarts d.channel d.tag
  have hout : s.broker.handOut queue n channel = some (d, taken s.broker d) := by
    rw [Broker.handOut, if_pos ⟨hready, hopen⟩]
    rfl
  refine ⟨s.broker.messages[n], how, d, List.getElem?_eq_getElem hn, hverdict, rfl, rfl, rfl, ?_⟩
  simp only [List.foldl_cons, List.foldl_nil, MessageServer.step, MessageServer.handOut, hlisten,
    List.getElem?_eq_getElem hn, hout, MessageServer.resume, List.getElem?_concat_length, hcall]

-- a message of the business queue may have to go through the dead queue
def weight (queue : String) : ℕ := if queue = mqProperties.topicQueue then 2 else 1

/-- What is left to do. -/
def load (b : MqBroker Body) : ℕ := (b.ready.map fun e => weight e.1).sum

/-- Nothing is with a consumer, and the channels work. -/
structure Quiet (b : MqBroker Body) : Prop where
  unacked : b.unacked = []
  failing : b.failing = false

section Settling

variable {b : MqBroker Body} {d : Delivery String}

/-- What is ready after the call. -/
def afterwards (b : MqBroker Body) (d : Delivery String) : Settlement → List (String × ℕ)
  | .acked => b.ready.erase (d.queue, d.message)
  | .rejected => b.ready.erase (d.queue, d.message) ++
      (topology.deadLetter d.queue).map (·, d.message)
  | .requeued => (d.queue, d.message) :: b.ready.erase (d.queue, d.message)

theorem settle_taken (hquiet : Quiet b) (hopen : d.channel ∉ b.closed) (how : Settlement) :
    ((taken b d).call topology.deadLetter how d.channel d.tag false).2 =
      { taken b d with
        ready := afterwards b d how
        unacked := []
        settled := (d, how) :: b.settled } := by
  have hnames : Broker.names d.channel d.tag false d = true := by
    simp [Broker.names]
  have hunacked : (taken b d).unacked = [d] := congrArg (d :: ·) hquiet.unacked
  have hfailing : (taken b d).failing = false := hquiet.failing
  have hclosed : d.channel ∉ (taken b d).closed := hopen
  rw [Broker.call, hfailing, if_neg Bool.false_ne_true, if_neg hclosed, hunacked, List.any_cons, hnames,
    Bool.true_or, Bool.or_true, if_pos rfl]
  simp only [Broker.settle, hunacked, List.filter_cons, hnames, List.filter_nil]
  cases how <;> simp [taken, afterwards]

/-- All messages but one are where they were, and that one is where it ends as it would have. -/
theorem onward_of_one {b' : MqBroker Body} (hquiet : Quiet b) (hmessages : b'.messages = b.messages)
    (queue : String) {n : ℕ} {m : Message Body} (hm : b.messages[n]? = some m)
    (hready : ∀ e ∈ b.ready.erase (queue, n), e ∈ b'.ready) (hsettled : b.settled ⊆ b'.settled)
    {p : Broker.Place String} (hp : (p, n) ∈ b'.places)
    (hends : ∀ q, Ends (Accepted converter m) p q → Ends (Accepted converter m) (.ready queue) q) :
    Onward converter b b' := by
  refine ⟨hmessages, fun n' m' hm' p' hp' => ?_⟩
  rw [mem_places] at hp'
  cases p' with
  | ready q =>
    by_cases heq : (q, n') = (queue, n)
    · obtain ⟨rfl, rfl⟩ := Prod.mk.inj heq
      obtain rfl : m = m' := Option.some.inj (hm.symm.trans hm')
      exact ⟨p, hp, hends⟩
    · have herase : (q, n') ∈ b.ready.erase (queue, n) := (List.mem_erase_of_ne heq).mpr hp'
      exact ⟨.ready q, mem_places.mpr (hready _ herase), fun _ hq => hq⟩
  | unacked q =>
    obtain ⟨d, hd, -⟩ := hp'
    rw [hquiet.unacked] at hd
    cases hd
  | acked q =>
    obtain ⟨d, hd, hd'⟩ := hp'
    exact ⟨.acked q, mem_places.mpr ⟨d, hsettled hd, hd'⟩, fun _ hq => hq⟩

theorem load_erase {queue : String} {n : ℕ} (hready : (queue, n) ∈ b.ready) :
    weight queue + ((b.ready.erase (queue, n)).map fun e => weight e.1).sum = load b := by
  have hperm := (List.perm_cons_erase hready).map fun e => weight e.1
  rw [List.map_cons] at hperm
  rw [load, hperm.sum_eq, List.sum_cons]

/-- A verdict keeps to where the message was to end, and leaves less to do. -/
theorem onward_settle_taken (hquiet : Quiet b) (hopen : d.channel ∉ b.closed)
    (hready : (d.queue, d.message) ∈ b.ready) {m : Message Body}
    (hm : b.messages[d.message]? = some m) {how : Settlement}
    (hverdict : Verdict (Accepted converter m) d.queue how) {b' : MqBroker Body}
    (hb' : b' = ((taken b d).call topology.deadLetter how d.channel d.tag false).2) :
    Quiet b' ∧ Onward converter b b' ∧ load b' < load b := by
  have hload := load_erase hready
  have hweight : 0 < weight d.queue := by
    unfold weight
    split <;> decide
  rw [settle_taken hquiet hopen how] at hb'
  have hmessages : b'.messages = b.messages := hb' ▸ rfl
  have hquiet' : Quiet b' := ⟨hb' ▸ rfl, hb' ▸ hquiet.failing⟩
  have hready' : b'.ready = afterwards b d how := hb' ▸ rfl
  have hsettled : b'.settled = (d, how) :: b.settled := hb' ▸ rfl
  have hkept : b.settled ⊆ b'.settled := hsettled ▸ List.subset_cons_self ..
  refine ⟨hquiet', ?_⟩
  have hacked (hhow : how = .acked) (hends : ∀ q, Ends (Accepted converter m) (.acked d.queue) q →
      Ends (Accepted converter m) (.ready d.queue) q) :
      Onward converter b b' ∧ load b' < load b := by
    rw [hhow] at hready' hsettled
    constructor
    · have hplace : (.acked d.queue, d.message) ∈ b'.places :=
        mem_places.mpr ⟨d, hsettled ▸ List.mem_cons_self, rfl, rfl⟩
      exact onward_of_one hquiet hmessages d.queue hm (fun e he => hready' ▸ he) hkept hplace hends
    · rw [load, hready', afterwards]
      omega
  generalize hqueue : d.queue = queue at hverdict
  cases hverdict with
  | consumed yes =>
    apply hacked rfl
    intro q hq
    rw [hqueue] at hq ⊢
    rw [Ends, if_neg topicQueue_ne_deadQueue]
    exact .inl ⟨yes, hq⟩
  | monitored =>
    apply hacked rfl
    intro q hq
    rw [hqueue] at hq ⊢
    rwa [Ends, if_pos rfl]
  | refused no =>
    rw [afterwards, hqueue, deadLetter_topicQueue] at hready'
    rw [hqueue] at hload
    have hdead : (.ready mqProperties.deadQueue, d.message) ∈ b'.places :=
      Broker.place_of_ready (hready' ▸ List.mem_append_right _ (List.mem_singleton.mpr rfl))
    constructor
    · apply onward_of_one hquiet hmessages mqProperties.topicQueue hm
        (fun e he => hready' ▸ List.mem_append_left _ he) hkept hdead
      intro q hq
      rw [Ends, if_pos rfl] at hq
      rw [Ends, if_neg topicQueue_ne_deadQueue]
      exact .inr ⟨no, hq⟩
    · have htopic : weight mqProperties.topicQueue = 2 := rfl
      have hlast : weight mqProperties.deadQueue = 1 := rfl
      rw [load, hready', List.map_append, List.sum_append, List.map_singleton, List.map_singleton,
        List.sum_singleton, hlast]
      omega

end Settling

/-! ## 4. Until nothing is left -/

/-- Consumers on their own can get a server from one state to the other. -/
def Consumed (converter : MessageConverter Body) (s s' : MessageServer Body) : Prop :=
  ∃ more : List (Event Body), (∀ e ∈ more, Consuming e) ∧
    more.foldl (MessageServer.step converter) s = s'

section Consumed

variable {s s' s'' : MessageServer Body}

theorem Consumed.refl (s : MessageServer Body) : Consumed converter s s :=
  ⟨[], by simp, rfl⟩

theorem Consumed.trans (h : Consumed converter s s') (h' : Consumed converter s' s'') :
    Consumed converter s s'' := by
  obtain ⟨more, hmore, rfl⟩ := h
  obtain ⟨more', hmore', rfl⟩ := h'
  refine ⟨more ++ more', fun e he => ?_, List.foldl_append⟩
  exact (List.mem_append.mp he).elim (hmore e) (hmore' e)

theorem Consumed.sound (h : Consumed converter s s') (hs : Sound converter s) : Sound converter s' := by
  obtain ⟨more, -, rfl⟩ := h
  exact (hs.run more).1

theorem consumed_lose (s : MessageServer Body) (channels : List ℕ) :
    Consumed converter s { s with broker := s.broker.lose channels } :=
  ⟨[.lose channels], by simpa using Consuming.lose channels, rfl⟩

theorem exists_open (b : MqBroker Body) : ∃ channel, channel ∉ b.closed := by
  obtain ⟨channel, hchannel⟩ := Infinite.exists_notMem_finset b.closed.toFinset
  exact ⟨channel, fun hclosed => hchannel (List.mem_toFinset.mpr hclosed)⟩

/-- A message is handed out over a new channel, and its listener makes its first call. -/
theorem exists_taken (h : Sound converter s) {queue : String} {n : ℕ}
    (hready : (queue, n) ∈ s.broker.ready) :
    ∃ m how d s', s.broker.messages[n]? = some m ∧ Verdict (Accepted converter m) queue how ∧
      d.queue = queue ∧ d.message = n ∧ d.channel ∉ s.broker.closed ∧ Consumed converter s s' ∧
      s'.broker = ((taken s.broker d).call topology.deadLetter how d.channel d.tag false).2 := by
  obtain ⟨channel, hopen⟩ := exists_open s.broker
  obtain ⟨m, how, d, hm, hverdict, hqueue, hmessage, hchannel, hbroker⟩ :=
    handOut_resume h hready hopen
  refine ⟨m, how, d, _, hm, hverdict, hqueue, hmessage, hchannel ▸ hopen, ⟨_, ?_, rfl⟩, hbroker⟩
  intro e he
  rcases List.mem_cons.mp he with rfl | he
  · exact .handOut queue n channel
  · rw [List.mem_singleton.mp he]
    exact .resume _

theorem onward_lose (b : MqBroker Body) (channels : List ℕ) :
    Onward converter b (b.lose channels) := by
  have hmessages : (b.lose channels).messages = b.messages := rfl
  apply onward_of_waiting hmessages (List.Subset.refl _)
  · exact fun q n hready => .inl (Broker.place_of_ready (List.mem_append_right _ hready))
  · intro d hd
    by_cases hlost : d.channel ∈ channels
    · have hkept : d ∈ b.unacked.filter (·.channel ∈ channels) :=
        List.mem_filter.mpr ⟨hd, decide_eq_true hlost⟩
      have hready := List.mem_map_of_mem (f := fun d => (d.queue, d.message)) hkept
      exact .inl (Broker.place_of_ready (List.mem_append_left _ hready))
    · have hkept : d ∈ b.unacked.filter (·.channel ∉ channels) :=
        List.mem_filter.mpr ⟨hd, decide_eq_true hlost⟩
      exact .inr (Broker.place_of_unacked hkept)

theorem unacked_lose (b : MqBroker Body) :
    (b.lose (b.unacked.map Delivery.channel)).unacked = [] := by
  apply List.filter_eq_nil_iff.mpr
  intro d hd hkept
  exact of_decide_eq_true hkept (List.mem_map_of_mem hd)

/-- A call that does not get through leaves the message with its consumer. -/
theorem onward_taken (b : MqBroker Body) (d : Delivery String) :
    Onward converter b { taken b d with failing := false } := by
  have hmessages : (taken b d).messages = b.messages := rfl
  refine onward_of_waiting hmessages (List.Subset.refl _) ?_ ?_
  · intro q n hready
    by_cases heq : (q, n) = (d.queue, d.message)
    · obtain ⟨rfl, rfl⟩ := Prod.mk.inj heq
      exact .inr (Broker.place_of_unacked List.mem_cons_self)
    · exact .inl (Broker.place_of_ready ((List.mem_erase_of_ne heq).mpr hready))
  · exact fun d' hd' => .inr (Broker.place_of_unacked (List.mem_cons_of_mem _ hd'))

/-- Consumers that begin anew have nothing in hand, and the first call that fails is the last. -/
theorem exists_quiet (h : Sound converter s) :
    ∃ s', Consumed converter s s' ∧ Onward converter s.broker s'.broker ∧
      s'.broker.unacked = [] ∧ (s'.broker.ready = [] ∨ Quiet s'.broker) := by
  let s₁ : MessageServer Body :=
    { s with broker := s.broker.lose (s.broker.unacked.map Delivery.channel) }
  have hconsumed : Consumed converter s s₁ := consumed_lose s _
  have honward : Onward converter s.broker s₁.broker := onward_lose ..
  have hunacked : s₁.broker.unacked = [] := unacked_lose s.broker
  cases hready : s₁.broker.ready with
  | nil => exact ⟨s₁, hconsumed, honward, hunacked, .inl hready⟩
  | cons e rest =>
    cases hfailing : s₁.broker.failing with
    | false => exact ⟨s₁, hconsumed, honward, hunacked, .inr ⟨hunacked, hfailing⟩⟩
    | true =>
      have he : (e.1, e.2) ∈ s₁.broker.ready := hready ▸ List.mem_cons_self
      obtain ⟨m, how, d, s₂, -, -, -, -, -, hconsumed₂, hbroker⟩ :=
        exists_taken (hconsumed.sound h) he
      have hfails : (taken s₁.broker d).failing = true := hfailing
      rw [Broker.call, hfails, if_pos rfl] at hbroker
      let s₃ : MessageServer Body :=
        { s₂ with broker := s₂.broker.lose (s₂.broker.unacked.map Delivery.channel) }
      have honward₂ : Onward converter s₁.broker s₂.broker := hbroker ▸ onward_taken ..
      have hunacked₃ : s₃.broker.unacked = [] := unacked_lose s₂.broker
      have hfailing₃ : s₃.broker.failing = false := by
        show s₂.broker.failing = false
        rw [hbroker]
      exact ⟨s₃, hconsumed.trans (hconsumed₂.trans (consumed_lose s₂ _)),
        honward.trans (honward₂.trans (onward_lose ..)), hunacked₃, .inr ⟨hunacked₃, hfailing₃⟩⟩

/-- One message after the other is settled, until there is none. -/
theorem exists_nothing_left (h : Sound converter s) (hquiet : Quiet s.broker) :
    ∃ s', Consumed converter s s' ∧ Onward converter s.broker s'.broker ∧
      s'.broker.ready = [] ∧ s'.broker.unacked = [] := by
  induction hload : load s.broker using Nat.strong_induction_on generalizing s with
  | _ k ih =>
    cases hready : s.broker.ready with
    | nil => exact ⟨s, .refl s, .refl _, hready, hquiet.unacked⟩
    | cons e rest =>
      have he : (e.1, e.2) ∈ s.broker.ready := hready ▸ List.mem_cons_self
      obtain ⟨m, how, d, s₁, hm, hverdict, hqueue, hmessage, hopen, hconsumed, hbroker⟩ :=
        exists_taken h he
      rw [← hqueue, ← hmessage] at he
      rw [← hmessage] at hm
      rw [← hqueue] at hverdict
      obtain ⟨hquiet₁, honward, hless⟩ := onward_settle_taken hquiet hopen he hm hverdict hbroker
      obtain ⟨s₂, hconsumed₂, honward₂, hnothing⟩ :=
        ih _ (hload ▸ hless) (hconsumed.sound h) hquiet₁ rfl
      exact ⟨s₂, hconsumed.trans hconsumed₂, honward.trans honward₂, hnothing⟩

/-- From every state the consumers can come to an end. -/
theorem exists_worked_off (h : Sound converter s) :
    ∃ s', Consumed converter s s' ∧ Onward converter s.broker s'.broker ∧
      s'.broker.ready = [] ∧ s'.broker.unacked = [] := by
  obtain ⟨s₁, hconsumed, honward, hunacked, hready | hquiet⟩ := exists_quiet h
  · exact ⟨s₁, hconsumed, honward, hready, hunacked⟩
  · obtain ⟨s₂, hconsumed₂, honward₂, hnothing⟩ :=
      exists_nothing_left (hconsumed.sound h) hquiet
    exact ⟨s₂, hconsumed.trans hconsumed₂, honward.trans honward₂, hnothing⟩

end Consumed

end UtilsRepo.Mq
