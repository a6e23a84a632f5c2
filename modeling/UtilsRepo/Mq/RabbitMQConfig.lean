import UtilsRepo.Lib.Broker

/-!
# Queues, exchanges and bindings

What `RabbitMQConfig` declares, with the names that `mq.properties` gives.
-/

namespace UtilsRepo.Mq

structure MqProperties where
  topicExchange : String
  topicQueue : String
  queueManual : String
  deadQueue : String
  deadExchange : String

-- `mq.properties`
def mqProperties : MqProperties where
  topicExchange := "topic.exchange.t"
  topicQueue := "topic.queue.t1"
  queueManual := "topic.queue.t2"
  deadQueue := "dead.queue"
  deadExchange := "dead.exchange"

namespace RabbitMQConfig

/-! ## 1. Beans -/

def topicQueue : Queue where
  name := mqProperties.topicQueue
  deadLetter := some (mqProperties.deadExchange, mqProperties.deadQueue)
  messageTtl := some 20000

def topicManualQueue : Queue := ⟨mqProperties.queueManual, none, none⟩

def deadQueue : Queue := ⟨mqProperties.deadQueue, none, none⟩

def topicExchange : Exchange := ⟨mqProperties.topicExchange, .topic⟩

def deadExchange : Exchange := ⟨mqProperties.deadExchange, .direct⟩

def bindingExchange : Binding := ⟨topicQueue.name, topicExchange.name, mqProperties.topicQueue⟩

def bindingExchange2 : Binding :=
  ⟨topicManualQueue.name, topicExchange.name, mqProperties.queueManual⟩

def deadQueueBinding : Binding := ⟨deadQueue.name, deadExchange.name, mqProperties.deadQueue⟩

def topology : Topology where
  queues := [topicManualQueue, topicQueue, deadQueue]
  exchanges := [topicExchange, deadExchange]
  bindings := [bindingExchange, bindingExchange2, deadQueueBinding]

/-! ## 2. What the declarations come to -/

/-- Business messages go to the business queue. -/
theorem route_topicQueue :
    topology.route mqProperties.topicExchange mqProperties.topicQueue = [mqProperties.topicQueue] := by
  decide

/-- What the business queue rejects or lets expire goes to the dead queue and nowhere else. -/
theorem deadLetter_topicQueue :
    topology.deadLetter mqProperties.topicQueue = [mqProperties.deadQueue] := by
  decide

/-- What the dead queue rejected would be gone. -/
theorem deadLetter_deadQueue : topology.deadLetter mqProperties.deadQueue = [] := by
  decide

theorem expires_deadQueue : topology.expires mqProperties.deadQueue = false := by
  decide

end RabbitMQConfig

end UtilsRepo.Mq
