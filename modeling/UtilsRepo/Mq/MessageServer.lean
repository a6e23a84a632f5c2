import UtilsRepo.Mq.TestReceiver

/-!
# The message server

The broker with the listeners at work: messages are sent, handed out and expire, channels are lost, calls
fail, and each invocation of a listener takes its next step whenever it is its turn.
-/

namespace UtilsRepo.Mq

open RabbitMQConfig

variable {Body : Type} (converter : MessageConverter Body)

/-- A listener at work on a delivery. -/
structure Invocation (Body : Type) where
  delivery : Delivery String
  message : Message Body
  attempts : ℕ
  call : Call Body Unit
  /-- What its calls have settled. -/
  settled : List (Delivery String × Settlement)

structure MessageServer (Body : Type) where
  broker : MqBroker Body
  invocations : List (Invocation Body)

inductive Event (Body : Type) where
  -- `convertAndSend(topicExchange, topicQueue, ..)`
  | send (message : Message Body)
  | handOut (queue : String) (message channel : ℕ)
  | expire (queue : String) (message : ℕ)
  /-- The channels of a connection go together. -/
  | lose (channels : List ℕ)
  /-- The next call on a channel will throw. -/
  | fail
  | resume (invocation : ℕ)
  | retry (invocation : ℕ)

-- `max-attempts`
def maxAttempts : ℕ := 3

/-! ## 1. Steps -/

def newlySettled (b b' : MqBroker Body) : List (Delivery String × Settlement) :=
  b'.settled.take (b'.settled.length - b.settled.length)

/-- A listener that threw is called again, up to the limit. -/
def Invocation.retry (inv : Invocation Body) : Invocation Body :=
  match inv.call.result, TestReceiver.listener converter inv.delivery.queue with
  | some (.error _), some listen =>
      if inv.attempts < maxAttempts then
        { inv with
          attempts := inv.attempts + 1
          call := listen inv.message inv.delivery.channel inv.delivery.tag }
      else inv
  | _, _ => inv

namespace MessageServer

def start : MessageServer Body := ⟨Broker.empty, []⟩

def resume (i : ℕ) (s : MessageServer Body) : MessageServer Body :=
  match s.invocations[i]? with
  | none => s
  | some inv =>
      match inv.call with
      | .done _ => s
      | .step act next =>
          { broker := act s.broker
            invocations := s.invocations.set i { inv with
              call := next s.broker
              settled := newlySettled s.broker (act s.broker) ++ inv.settled } }

def retry (i : ℕ) (s : MessageServer Body) : MessageServer Body :=
  match s.invocations[i]? with
  | none => s
  | some inv => { s with invocations := s.invocations.set i (inv.retry converter) }

def handOut (queue : String) (n channel : ℕ) (s : MessageServer Body) : MessageServer Body :=
  match TestReceiver.listener converter queue, s.broker.messages[n]?,
      s.broker.handOut queue n channel with
  | some listen, some message, some (d, broker) =>
      { broker
        invocations := s.invocations ++ [⟨d, message, 1, listen message d.channel d.tag, []⟩] }
  | _, _, _ => s

def step (s : MessageServer Body) : Event Body → MessageServer Body
  | .send message =>
      let queues := topology.route mqProperties.topicExchange mqProperties.topicQueue
      { s with broker := s.broker.publish queues message }
  | .handOut queue n channel => s.handOut converter queue n channel
  | .expire queue n =>
      if topology.expires queue then
        { s with broker := s.broker.expire topology.deadLetter queue n }
      else s
  | .lose channels => { s with broker := s.broker.lose channels }
  | .fail => { s with broker := { s.broker with failing := true } }
  | .resume i => s.resume i
  | .retry i => s.retry converter i

def run (events : List (Event Body)) : MessageServer Body := events.foldl (step converter) start

end MessageServer

end UtilsRepo.Mq
