import Mathlib.Data.List.Nodup
import Mathlib.Data.List.Perm.Basic
import Mathlib.Data.List.Range
import Mathlib.Tactic.Common

/-!
# Message brokers

Queues, deliveries and acknowledgements as AMQP brokers keep them, the exchanges that say which queues a
message goes to, and an account of where every message is: whatever the broker does moves messages from
place to place, along hops that the queues' dead-letter routes allow.
-/

/-! ## 1. Declarations -/

inductive ExchangeType where
  | direct
  | topic
  deriving DecidableEq

structure Exchange where
  name : String
  type : ExchangeType
  deriving DecidableEq

structure Queue where
  name : String
  /-- Exchange and routing key for messages that are rejected or expire. -/
  deadLetter : Option (String × String)
  /-- In milliseconds. -/
  messageTtl : Option ℕ
  deriving DecidableEq

structure Binding where
  queue : String
  exchange : String
  routingKey : String
  deriving DecidableEq

structure Topology where
  queues : List Queue
  exchanges : List Exchange
  bindings : List Binding

/-- A `*` stands for one word and a `#` for any number of them. -/
def topicMatches : List (List Char) → List (List Char) → Bool
  | [], words => words.isEmpty
  | pattern :: patterns, words =>
      if pattern = ['#'] then words.tails.any (topicMatches patterns)
      else
        match words with
        | [] => false
        | word :: words => (pattern = ['*'] || pattern = word) && topicMatches patterns words

def ExchangeType.matches : ExchangeType → String → String → Bool
  | direct, pattern, routingKey => pattern = routingKey
  | topic, pattern, routingKey =>
      topicMatches (pattern.toList.splitOn '.') (routingKey.toList.splitOn '.')

namespace Topology

variable (t : Topology)

/-- The queues a message goes to; none when there is no such exchange. -/
def route (exchange routingKey : String) : List String :=
  match t.exchanges.find? (·.name = exchange) with
  | none => []
  | some x => (t.queues.map Queue.name).filter fun q =>
      t.bindings.any fun b =>
        b.queue = q && b.exchange = exchange && x.type.matches b.routingKey routingKey

def queue? (q : String) : Option Queue := t.queues.find? (·.name = q)

/-- Where messages go that the queue rejects or lets expire. -/
def deadLetter (q : String) : List String :=
  match (t.queue? q).bind Queue.deadLetter with
  | none => []
  | some (exchange, routingKey) => t.route exchange routingKey

def expires (q : String) : Bool := ((t.queue? q).bind Queue.messageTtl).isSome

end Topology

/-! ## 2. Queues and deliveries -/

/-- A message handed out over a channel.  Consumers name it by the channel and its tag. -/
structure Delivery (κ : Type) where
  channel : ℕ
  tag : ℕ
  queue : κ
  message : ℕ
  deriving DecidableEq

/-- What a consumer makes of a delivery. -/
inductive Settlement where
  | acked
  | rejected
  | requeued
  deriving DecidableEq

/-- Messages go by the order in which they were published. -/
structure Broker (κ μ : Type) where
  messages : List μ
  /-- The messages that wait in queues.  Which of them is handed out next is left open. -/
  ready : List (κ × ℕ)
  unacked : List (Delivery κ)
  /-- All deliveries so far. -/
  delivered : List (Delivery κ)
  settled : List (Delivery κ × Settlement)
  closed : List ℕ
  /-- The next call on a channel does not get through. -/
  failing : Bool

namespace Broker

variable {κ μ : Type} (dead : κ → List κ)

def empty : Broker κ μ := ⟨[], [], [], [], [], [], false⟩

def publish (queues : List κ) (m : μ) (b : Broker κ μ) : Broker κ μ :=
  { b with
    messages := b.messages ++ [m]
    ready := b.ready ++ queues.map (·, b.messages.length) }

-- tags count the deliveries of a channel
def lastTag (b : Broker κ μ) (channel : ℕ) : ℕ := b.delivered.countP (·.channel = channel)

def handOut [DecidableEq κ] (q : κ) (n channel : ℕ) (b : Broker κ μ) :
    Option (Delivery κ × Broker κ μ) :=
  if (q, n) ∈ b.ready ∧ channel ∉ b.closed then
    let d := ⟨channel, b.lastTag channel + 1, q, n⟩
    some (d, { b with
      ready := b.ready.erase (q, n)
      unacked := d :: b.unacked
      delivered := b.delivered ++ [d] })
  else none

def expire [DecidableEq κ] (q : κ) (n : ℕ) (b : Broker κ μ) : Broker κ μ :=
  if (q, n) ∈ b.ready then
    { b with ready := b.ready.erase (q, n) ++ (dead q).map (·, n) }
  else b

/-- Channels go, and what is not settled on them is ready again. -/
def lose (channels : List ℕ) (b : Broker κ μ) : Broker κ μ :=
  { b with
    ready := (b.unacked.filter (·.channel ∈ channels)).map (fun d => (d.queue, d.message)) ++ b.ready
    unacked := b.unacked.filter (·.channel ∉ channels)
    closed := channels ++ b.closed }

def settle (how : Settlement) (selected : Delivery κ → Bool) (b : Broker κ μ) : Broker κ μ :=
  let gone := b.unacked.filter selected
  { b with
    ready :=
      match how with
      | .acked => b.ready
      | .rejected => b.ready ++ gone.flatMap fun d => (dead d.queue).map (·, d.message)
      | .requeued => gone.map (fun d => (d.queue, d.message)) ++ b.ready
    unacked := b.unacked.filter (!selected ·)
    settled := gone.map (·, how) ++ b.settled }

/-- What a call names: one delivery, or with `multiple` all up to it, where a zero stands for all there
are. -/
def names (channel tag : ℕ) (multiple : Bool) (d : Delivery κ) : Bool :=
  d.channel = channel && if multiple then tag = 0 || d.tag ≤ tag else d.tag = tag

/-- Why a call had no effect. -/
inductive Refusal where
  | unreachable
  | alreadyClosed

/-- A call that settles deliveries. -/
def call (how : Settlement) (channel tag : ℕ) (multiple : Bool) (b : Broker κ μ) :
    Except Refusal Unit × Broker κ μ :=
  if b.failing then (.error .unreachable, { b with failing := false })
  else if channel ∈ b.closed then (.error .alreadyClosed, b)
  else if (multiple && tag == 0) || b.unacked.any (names channel tag multiple) then
    (.ok (), b.settle dead how (names channel tag multiple))
  -- a tag that stands for nothing costs the channel
  else (.ok (), b.lose [channel])

/-! ## 3. Places -/

inductive Place (κ : Type) where
  | ready (queue : κ)
  | unacked (queue : κ)
  | acked (queue : κ)
  deriving DecidableEq

def Place.queue : Place κ → κ
  | ready q | unacked q | acked q => q

def acked (b : Broker κ μ) : List (Delivery κ) :=
  (b.settled.filter (·.2 = .acked)).map Prod.fst

/-- Each message the broker keeps, and those that were acknowledged, with its place. -/
def places (b : Broker κ μ) : List (Place κ × ℕ) :=
  b.ready.map (fun e => (.ready e.1, e.2)) ++ b.unacked.map (fun d => (.unacked d.queue, d.message)) ++
    b.acked.map (fun d => (.acked d.queue, d.message))

/-- How a message can change its place. -/
inductive Hop : Place κ → Place κ → Prop
  | handOut (q : κ) : Hop (.ready q) (.unacked q)
  | requeue (q : κ) : Hop (.unacked q) (.ready q)
  | ack (q : κ) : Hop (.unacked q) (.acked q)
  | expire {q q' : κ} (route : dead q = [q']) : Hop (.ready q) (.ready q')
  | reject {q q' : κ} (route : dead q = [q']) : Hop (.unacked q) (.ready q')

/-- Some messages have hopped, and all others are where they were. -/
def Moves (l l' : List (Place κ × ℕ)) : Prop :=
  ∃ (moved : List ((Place κ × Place κ) × ℕ)) (rest : List (Place κ × ℕ)),
    l.Perm (moved.map (fun m => (m.1.1, m.2)) ++ rest) ∧
      l'.Perm (moved.map (fun m => (m.1.2, m.2)) ++ rest) ∧ ∀ m ∈ moved, Hop dead m.1.1 m.1.2

section Moves

variable {dead} {l l' rest : List (Place κ × ℕ)}

theorem Hop.queue {p p' : Place κ} (h : Hop dead p p') :
    p'.queue = p.queue ∨ dead p.queue = [p'.queue] := by
  cases h with
  | handOut q | requeue q | ack q => exact .inl rfl
  | expire route | reject route => exact .inr route

theorem Moves.refl (l : List (Place κ × ℕ)) : Moves dead l l :=
  ⟨[], l, List.Perm.refl l, List.Perm.refl l, by simp⟩

theorem moves_one {p p' : Place κ} {n : ℕ} (hhop : Hop dead p p') (hl : l.Perm ((p, n) :: rest))
    (hl' : l'.Perm ((p', n) :: rest)) : Moves dead l l' :=
  ⟨[((p, p'), n)], rest, hl, hl', by simpa using hhop⟩

/-- No message is lost, none is there twice. -/
theorem Moves.numbers (h : Moves dead l l') : (l.map Prod.snd).Perm (l'.map Prod.snd) := by
  obtain ⟨moved, rest, hl, hl', -⟩ := h
  have hsnd := hl.map Prod.snd
  have hsnd' := hl'.map Prod.snd
  simp only [List.map_append, List.map_map] at hsnd hsnd'
  exact hsnd.trans hsnd'.symm

theorem Moves.stays {S : Place κ → Prop} (h : Moves dead l l')
    (hS : ∀ p p', Hop dead p p' → S p → S p') {p : Place κ} {n : ℕ} (hmem : (p, n) ∈ l) (hp : S p) :
    ∃ p', S p' ∧ (p', n) ∈ l' := by
  obtain ⟨moved, rest, hl, hl', hhop⟩ := h
  rcases List.mem_append.mp (hl.subset hmem) with hmoved | hrest
  · obtain ⟨m, hm, heq⟩ := List.mem_map.mp hmoved
    obtain ⟨rfl, rfl⟩ := Prod.mk.inj heq
    refine ⟨m.1.2, hS _ _ (hhop m hm) hp, hl'.symm.subset ?_⟩
    exact List.mem_append_left rest (List.mem_map.mpr ⟨m, hm, rfl⟩)
  · exact ⟨p, hp, hl'.symm.subset (List.mem_append_right _ hrest)⟩

theorem Moves.forall {S : Place κ → Prop} (h : Moves dead l l')
    (hS : ∀ p p', Hop dead p p' → S p → S p') (hl : ∀ e ∈ l, S e.1) : ∀ e ∈ l', S e.1 := by
  obtain ⟨moved, rest, hl₁, hl', hhop⟩ := h
  intro e he
  rcases List.mem_append.mp (hl'.subset he) with hmoved | hrest
  · obtain ⟨m, hm, rfl⟩ := List.mem_map.mp hmoved
    have hfrom : (m.1.1, m.2) ∈ l :=
      hl₁.symm.subset (List.mem_append_left rest (List.mem_map.mpr ⟨m, hm, rfl⟩))
    exact hS _ _ (hhop m hm) (hl _ hfrom)
  · exact hl e (hl₁.symm.subset (List.mem_append_right _ hrest))

end Moves

section Operations

variable {dead} {b : Broker κ μ}

theorem place_of_ready {q : κ} {n : ℕ} (h : (q, n) ∈ b.ready) : (.ready q, n) ∈ b.places :=
  List.mem_append_left _ (List.mem_append_left _ (List.mem_map.mpr ⟨(q, n), h, rfl⟩))

theorem place_of_unacked {d : Delivery κ} (h : d ∈ b.unacked) :
    (.unacked d.queue, d.message) ∈ b.places :=
  List.mem_append_left _ (List.mem_append_right _ (List.mem_map.mpr ⟨d, h, rfl⟩))

theorem settled_settle (how : Settlement) (selected : Delivery κ → Bool) :
    (b.settle dead how selected).settled =
      (b.unacked.filter selected).map (·, how) ++ b.settled := rfl

theorem places_publish (queues : List κ) (m : μ) :
    (b.publish queues m).places.Perm
      (queues.map (fun q => (.ready q, b.messages.length)) ++ b.places) := by
  simp only [places, publish, acked, List.map_append, List.map_map, List.append_assoc]
  exact List.perm_append_comm_assoc ..

theorem handOut_cases [DecidableEq κ] {q : κ} {n channel : ℕ} {d : Delivery κ} {b' : Broker κ μ}
    (h : b.handOut q n channel = some (d, b')) :
    (q, n) ∈ b.ready ∧ channel ∉ b.closed ∧ d = ⟨channel, b.lastTag channel + 1, q, n⟩ ∧
      b' = { b with
        ready := b.ready.erase (q, n)
        unacked := d :: b.unacked
        delivered := b.delivered ++ [d] } := by
  unfold handOut at h
  split at h
  · rename_i hready
    obtain ⟨rfl, rfl⟩ := Prod.mk.inj (Option.some.inj h)
    exact ⟨hready.1, hready.2, rfl, rfl⟩
  · cases h

theorem moves_handOut [DecidableEq κ] {q : κ} {n channel : ℕ} {d : Delivery κ} {b' : Broker κ μ}
    (h : b.handOut q n channel = some (d, b')) : Moves dead b.places b'.places := by
  obtain ⟨hready, -, rfl, rfl⟩ := handOut_cases h
  have hfrom := (List.perm_cons_erase hready).map fun e : κ × ℕ => (Place.ready e.1, e.2)
  apply moves_one (.handOut q) (n := n)
  · simp only [places, List.append_assoc]
    exact hfrom.append_right _
  · simp only [places, acked, List.map_cons, List.append_assoc, List.cons_append]
    exact List.perm_middle

theorem moves_expire [DecidableEq κ] {q q' : κ} {n : ℕ} (hdead : dead q = [q'])
    (hready : (q, n) ∈ b.ready) : Moves dead b.places (b.expire dead q n).places := by
  have hfrom := (List.perm_cons_erase hready).map fun e : κ × ℕ => (Place.ready e.1, e.2)
  apply moves_one (.expire hdead) (n := n)
  · simp only [places, List.append_assoc]
    exact hfrom.append_right _
  · simp only [places, expire, acked, if_pos hready, hdead, List.map_append, List.map_cons,
      List.map_nil, List.append_assoc, List.cons_append, List.nil_append]
    exact List.perm_middle

/-- The deliveries a condition picks out stand apart from what else there is. -/
theorem places_split (picked : Delivery κ → Bool) :
    b.places.Perm ((b.unacked.filter picked).map (fun d => (.unacked d.queue, d.message)) ++
      { b with unacked := b.unacked.filter (!picked ·) }.places) := by
  have hunacked := (List.filter_append_perm picked b.unacked).symm.map
    fun d : Delivery κ => (Place.unacked d.queue, d.message)
  rw [List.map_append] at hunacked
  simp only [places, acked, List.append_assoc]
  calc
    _ = _ ++ (b.unacked.map _ ++ _) := rfl
    List.Perm _ (_ ++ ((b.unacked.filter picked).map _ ++ (b.unacked.filter (!picked ·)).map _ ++ _)) :=
      (hunacked.append_right _).append_left _
    List.Perm _ _ := by
      rw [List.append_assoc]
      exact List.perm_append_comm_assoc ..

theorem moves_lose (channels : List ℕ) : Moves dead b.places (b.lose channels).places := by
  refine ⟨(b.unacked.filter (·.channel ∈ channels)).map
    (fun d => ((.unacked d.queue, .ready d.queue), d.message)),
    { b with unacked := b.unacked.filter (·.channel ∉ channels) }.places, ?_, ?_, ?_⟩
  · simp only [List.map_map, decide_not]
    exact places_split _
  · simp only [places, lose, acked, List.map_append, List.map_map, List.append_assoc]
    exact List.Perm.refl _
  · intro m hm
    obtain ⟨d, -, rfl⟩ := List.mem_map.mp hm
    exact .requeue d.queue

theorem moves_settle {how : Settlement} {selected : Delivery κ → Bool} {d : Delivery κ}
    (hone : b.unacked.filter selected = [d])
    (hdead : how = .rejected → ∃ q, dead d.queue = [q]) :
    Moves dead b.places (b.settle dead how selected).places := by
  have hfrom := places_split (b := b) selected
  rw [hone] at hfrom
  cases how with
  | acked =>
    apply moves_one (.ack d.queue) hfrom
    simp only [places, acked, settle, hone, List.map_cons, List.append_assoc, List.map_nil,
      List.cons_append, List.nil_append, List.filter_cons, decide_true, if_true]
    exact (List.perm_middle.append_left _).trans List.perm_middle
  | rejected =>
    obtain ⟨q, hq⟩ := hdead rfl
    apply moves_one (.reject hq) hfrom
    simp only [places, acked, settle, hone, List.map_cons, List.append_assoc, List.map_nil,
      List.cons_append, List.nil_append, List.filter_cons, List.map_append, hq, List.flatMap_cons,
      List.flatMap_nil]
    exact List.perm_middle
  | requeued =>
    apply moves_one (.requeue d.queue) hfrom
    simp only [places, acked, settle, hone, List.map_cons, List.append_assoc, List.map_nil,
      List.cons_append, List.nil_append, List.filter_cons]
    exact List.Perm.refl _

end Operations

/-! ## 4. Deliveries -/

/-- Every delivery is on its own: it is waited for, settled, or went with its channel, and no two can be
confused. -/
structure Coherent (b : Broker κ μ) : Prop where
  tags : (b.delivered.map fun d => (d.channel, d.tag)).Nodup
  tag_le : ∀ d ∈ b.delivered, d.tag ≤ b.lastTag d.channel
  nodup : (b.unacked ++ b.settled.map Prod.fst).Nodup
  delivered : ∀ d ∈ b.unacked ++ b.settled.map Prod.fst, d ∈ b.delivered
  accounted : ∀ d ∈ b.delivered,
    d ∈ b.unacked ∨ d ∈ b.settled.map Prod.fst ∨ d.channel ∈ b.closed
  isOpen : ∀ d ∈ b.unacked, d.channel ∉ b.closed

theorem coherent_empty : (empty : Broker κ μ).Coherent :=
  ⟨List.nodup_nil, by simp [empty], List.nodup_nil, by simp [empty], by simp [empty], by simp [empty]⟩

namespace Coherent

variable {dead} {b : Broker κ μ}

theorem eq_of_tag (h : b.Coherent) {d d' : Delivery κ} (hd : d ∈ b.delivered)
    (hd' : d' ∈ b.delivered) (hchannel : d'.channel = d.channel) (htag : d'.tag = d.tag) : d' = d :=
  List.inj_on_of_nodup_map h.tags hd' hd (Prod.ext hchannel htag)

theorem fresh (h : b.Coherent) (channel : ℕ) :
    ∀ d ∈ b.delivered, (d.channel, d.tag) ≠ (channel, b.lastTag channel + 1) := by
  intro d hd heq
  obtain ⟨rfl, htag⟩ := Prod.mk.inj heq
  have hle := h.tag_le d hd
  omega

theorem congr {ν : Type} {b' : Broker κ ν} (h : b.Coherent) (hunacked : b'.unacked = b.unacked)
    (hdelivered : b'.delivered = b.delivered) (hsettled : b'.settled = b.settled)
    (hclosed : b'.closed = b.closed) : b'.Coherent := by
  obtain ⟨tags, tag_le, nodup, delivered, accounted, isOpen⟩ := h
  unfold lastTag at tag_le
  rw [← hdelivered] at tags tag_le delivered accounted
  rw [← hunacked, ← hsettled] at nodup delivered accounted
  rw [← hclosed] at accounted isOpen
  rw [← hunacked] at isOpen
  exact ⟨tags, tag_le, nodup, delivered, accounted, isOpen⟩

theorem expire [DecidableEq κ] (h : b.Coherent) (q : κ) (n : ℕ) : (b.expire dead q n).Coherent := by
  unfold Broker.expire
  split
  · exact h.congr rfl rfl rfl rfl
  · exact h

theorem handOut [DecidableEq κ] (h : b.Coherent) {q : κ} {n channel : ℕ} {d : Delivery κ}
    {b' : Broker κ μ} (hout : b.handOut q n channel = some (d, b')) : b'.Coherent := by
  obtain ⟨-, hopen, rfl, rfl⟩ := handOut_cases hout
  have hfresh := h.fresh channel
  constructor
  case tags =>
    rw [List.map_append, List.map_singleton]
    apply List.nodup_append.mpr
    refine ⟨h.tags, List.nodup_singleton _, ?_⟩
    intro key hkey key' hkey'
    obtain ⟨d, hd, rfl⟩ := List.mem_map.mp hkey
    rw [List.mem_singleton.mp hkey']
    exact hfresh d hd
  case tag_le =>
    intro d hd
    simp only [lastTag, List.countP_append, List.countP_singleton]
    rcases List.mem_append.mp hd with hold | hnew
    · exact (h.tag_le d hold).trans (Nat.le_add_right ..)
    · rw [List.mem_singleton.mp hnew]
      simp [lastTag]
  case nodup =>
    apply List.nodup_cons.mpr
    exact ⟨fun hmem => hfresh _ (h.delivered _ hmem) rfl, h.nodup⟩
  case delivered =>
    intro d hd
    rcases List.mem_cons.mp hd with rfl | hold
    · exact List.mem_append_right _ (List.mem_singleton.mpr rfl)
    · exact List.mem_append_left _ (h.delivered d hold)
  case accounted =>
    intro d hd
    rcases List.mem_append.mp hd with hold | hnew
    · exact (h.accounted d hold).imp_left (List.mem_cons_of_mem _)
    · rw [List.mem_singleton.mp hnew]
      exact .inl List.mem_cons_self
  case isOpen =>
    intro d hd
    rcases List.mem_cons.mp hd with rfl | hold
    · exact hopen
    · exact h.isOpen d hold

theorem lose (h : b.Coherent) (channels : List ℕ) : (b.lose channels).Coherent := by
  have hsub : ((b.lose channels).unacked ++ b.settled.map Prod.fst).Sublist
      (b.unacked ++ b.settled.map Prod.fst) := List.filter_sublist.append_right _
  refine ⟨h.tags, h.tag_le, h.nodup.sublist hsub, fun d hd => h.delivered d (hsub.subset hd), ?_, ?_⟩
  · intro d hd
    by_cases hlost : d.channel ∈ channels
    · exact .inr (.inr (List.mem_append_left _ hlost))
    · rcases h.accounted d hd with hunacked | hsettled | hclosed
      · exact .inl (List.mem_filter.mpr ⟨hunacked, decide_eq_true hlost⟩)
      · exact .inr (.inl hsettled)
      · exact .inr (.inr (List.mem_append_right _ hclosed))
  · intro d hd hclosed
    obtain ⟨hunacked, hkept⟩ := List.mem_filter.mp hd
    rcases List.mem_append.mp hclosed with hlost | hclosed
    · exact of_decide_eq_true hkept hlost
    · exact h.isOpen d hunacked hclosed

theorem settle (h : b.Coherent) (how : Settlement) (selected : Delivery κ → Bool) :
    (b.settle dead how selected).Coherent := by
  have hperm : ((b.settle dead how selected).unacked ++
      (b.settle dead how selected).settled.map Prod.fst).Perm
        (b.unacked ++ b.settled.map Prod.fst) := by
    simp only [Broker.settle, List.map_append, List.map_map, Function.comp_def, List.map_id']
    rw [← List.append_assoc]
    exact (List.perm_append_comm.trans (List.filter_append_perm selected b.unacked)).append_right _
  refine ⟨h.tags, h.tag_le, hperm.nodup_iff.mpr h.nodup,
    fun d hd => h.delivered d (hperm.subset hd), ?_, ?_⟩
  · intro d hd
    have haccounted := h.accounted d hd
    rw [← or_assoc, ← List.mem_append] at haccounted ⊢
    exact haccounted.imp_left fun hmem => hperm.symm.subset hmem
  · exact fun d hd => h.isOpen d (List.filter_sublist.subset hd)

/-- A call that names one delivery settles no other. -/
theorem filter_names [DecidableEq κ] (h : b.Coherent) {d : Delivery κ} (hd : d ∈ b.unacked) :
    b.unacked.filter (names d.channel d.tag false) = [d] := by
  have hdelivered : ∀ d' ∈ b.unacked, d' ∈ b.delivered :=
    fun d' hd' => h.delivered d' (List.mem_append_left _ hd')
  have hnames : ∀ d' ∈ b.unacked, names d.channel d.tag false d' = (d' == d) := by
    intro d' hd'
    rw [Bool.eq_iff_iff, beq_iff_eq]
    simp only [names, Bool.false_eq_true, if_false, Bool.and_eq_true, decide_eq_true_eq]
    constructor
    · rintro ⟨hchannel, htag⟩
      exact h.eq_of_tag (hdelivered d hd) (hdelivered d' hd') hchannel htag
    · rintro rfl
      exact ⟨rfl, rfl⟩
  have hcount : b.unacked.count d = 1 :=
    List.count_eq_one_of_mem (List.nodup_append.mp h.nodup).1 hd
  rw [List.filter_congr hnames, List.filter_beq, hcount]
  rfl

end Coherent

/-- As long as a delivery is waited for or has gone with its channel, a call that names it settles it or
has no effect. -/
theorem call_cases {b : Broker κ μ} {d : Delivery κ} (hown : d ∈ b.unacked ∨ d.channel ∈ b.closed)
    (how : Settlement) :
    (∃ r failing, b.call dead how d.channel d.tag false = (.error r, { b with failing })) ∨
      (d ∈ b.unacked ∧ b.call dead how d.channel d.tag false =
        (.ok (), b.settle dead how (names d.channel d.tag false))) := by
  unfold call
  split
  · exact .inl ⟨_, _, rfl⟩
  · split
    · exact .inl ⟨_, _, rfl⟩
    · rename_i hopen
      have hd : d ∈ b.unacked := hown.resolve_right hopen
      have hany : b.unacked.any (names d.channel d.tag false) = true :=
        List.any_eq_true.mpr ⟨d, hd, by simp [names]⟩
      rw [hany, Bool.or_true, if_pos rfl]
      exact .inr ⟨hd, rfl⟩

end Broker
