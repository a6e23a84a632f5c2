import UtilsRepo.Java.Object
import UtilsRepo.Lib.Interleaving
import UtilsRepo.Mq.RabbitMQConfig

/-!
# Consumers

`TestReceiver`'s two listeners, one channel call at a time.  What they print is left out.  Whatever is
thrown on the way, each of them settles at most its own delivery, with its last call.
-/

namespace UtilsRepo.Mq

structure Message (Body : Type) where
  body : Body
  -- `null` where the publisher has not set it
  messageId : Option String

/-- `Jackson2JsonMessageConverter`.  Where there is no content it answers the body's bytes, so never
`null`. -/
structure MessageConverter (Body : Type) where
  fromMessage : Message Body → Except JavaException JavaObject
  fromMessage_ne_null : ∀ message, fromMessage message ≠ .ok .null

-- `(List<?>) object`, which lets `null` through
def castList : JavaObject → Except JavaException (Option (List JavaObject))
  | .list elements => .ok (some elements)
  | .null => .ok none
  | _ => .error ⟨.classCastException, none⟩

variable {Body : Type}

abbrev MqBroker (Body : Type) := Broker String (Message Body)

/-- Code that talks to the broker, one call at a time. -/
abbrev Call (Body β : Type) := Process JavaException (MqBroker Body) β

/-! ## 1. Channel calls -/

namespace Channel

def settle (how : Settlement) (channel deliveryTag : ℕ) (multiple : Bool) : Call Body Unit :=
  .atomic (Fallible.ofStep fun b =>
    match b.call RabbitMQConfig.topology.deadLetter how channel deliveryTag multiple with
    | (.ok (), b') => (.ok (), b')
    | (.error .unreachable, b') => (.error ⟨.ioException, none⟩, b')
    | (.error .alreadyClosed, b') => (.error ⟨.alreadyClosedException, none⟩, b'))

def refused (requeue : Bool) : Settlement := if requeue then .requeued else .rejected

def basicAck (channel deliveryTag : ℕ) (multiple : Bool) : Call Body Unit :=
  settle .acked channel deliveryTag multiple

def basicNack (channel deliveryTag : ℕ) (multiple requeue : Bool) : Call Body Unit :=
  settle (refused requeue) channel deliveryTag multiple

def basicReject (channel deliveryTag : ℕ) (requeue : Bool) : Call Body Unit :=
  settle (refused requeue) channel deliveryTag false

end Channel

/-! ## 2. Listeners -/

namespace TestReceiver

open Channel

def deadQueueMonitorProcess (channel deliveryTag : ℕ) : Call Body Unit :=
  basicAck channel deliveryTag false

def process (converter : MessageConverter Body) (message : Message Body)
    (channel deliveryTag : ℕ) : Call Body Unit :=
  tryCatch
    (do
      let converted ← .done (converter.fromMessage message)
      let _ ← .done (castList converted)
      if message.messageId.isNone then basicNack channel deliveryTag false false
      else basicAck channel deliveryTag false)
    fun _ => basicReject channel deliveryTag false

-- `@RabbitListener(queues = ..)`
def listener (converter : MessageConverter Body) (queue : String) :
    Option (Message Body → ℕ → ℕ → Call Body Unit) :=
  if queue = "dead.queue" then some fun _ => deadQueueMonitorProcess
  else if queue = "topic.queue.t1" then some (process converter)
  else none

end TestReceiver

/-! ## 3. What a listener does to its delivery -/

/-- The message's body converts to a list, and it has an id. -/
def Accepted (converter : MessageConverter Body) (message : Message Body) : Prop :=
  (∃ elements, converter.fromMessage message = .ok (.list elements)) ∧ message.messageId ≠ none

-- the consumer has it, or it went with its channel
def Owned (d : Delivery String) (b : MqBroker Body) : Prop :=
  d ∈ b.unacked ∨ d.channel ∈ b.closed

def Idle (b b' : MqBroker Body) : Prop := ∃ failing, b' = { b with failing }

/-- The delivery, and no other, is settled in an allowed way. -/
def Settles (d : Delivery String) (Allowed : Settlement → Prop) (b b' : MqBroker Body) : Prop :=
  ∃ how, Allowed how ∧ d ∈ b.unacked ∧
    b' = b.settle RabbitMQConfig.topology.deadLetter how (Broker.names d.channel d.tag false)

abbrev SettlesOnce (d : Delivery String) (Allowed : Settlement → Prop) (call : Call Body Unit) : Prop :=
  call.CommitsOnce (Owned d) Idle (Settles d Allowed)

variable {d : Delivery String} {Allowed : Settlement → Prop}

theorem settlesOnce_settle {how : Settlement} (hhow : Allowed how) :
    SettlesOnce d Allowed (Channel.settle how d.channel d.tag false : Call Body Unit) := by
  apply Process.CommitsOnce.atomic
  intro b hown
  rw [Fallible.eval_ofStep]
  rcases Broker.call_cases RabbitMQConfig.topology.deadLetter hown how with
    ⟨refusal, failing, hcall⟩ | ⟨hd, hcall⟩
  · rw [hcall]
    cases refusal with
    | unreachable | alreadyClosed => exact .inl ⟨_, rfl, failing, rfl⟩
  · rw [hcall]
    exact .inr ⟨(), rfl, how, hhow, hd, rfl⟩

theorem castList_ok {converter : MessageConverter Body} {message : Message Body} {o : JavaObject}
    {list : Option (List JavaObject)} (ho : converter.fromMessage message = .ok o)
    (hlist : castList o = .ok list) :
    ∃ elements, converter.fromMessage message = .ok (.list elements) := by
  cases o with
  | list elements => exact ⟨elements, ho⟩
  | null => exact absurd ho (converter.fromMessage_ne_null message)
  | _ => cases hlist

/-- Only what is accepted is acknowledged, and nothing is requeued. -/
theorem settlesOnce_process (converter : MessageConverter Body) (message : Message Body) :
    SettlesOnce d (fun how => how = .acked ∧ Accepted converter message ∨ how = .rejected)
      (TestReceiver.process converter message d.channel d.tag) := by
  apply Process.CommitsOnce.tryCatch
  · apply Process.CommitsOnce.done_bind
    intro o ho
    apply Process.CommitsOnce.done_bind
    intro list hlist
    split
    · exact settlesOnce_settle (.inr rfl)
    · rename_i hid
      refine settlesOnce_settle (.inl ⟨rfl, castList_ok ho hlist, ?_⟩)
      simpa using hid
  · exact fun _ => settlesOnce_settle (.inr rfl)

theorem settlesOnce_deadQueueMonitorProcess :
    SettlesOnce d (· = .acked)
      (TestReceiver.deadQueueMonitorProcess d.channel d.tag : Call Body Unit) :=
  settlesOnce_settle rfl

end UtilsRepo.Mq
