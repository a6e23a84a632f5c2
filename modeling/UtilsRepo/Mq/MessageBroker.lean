import UtilsRepo.Mq.WorkedOff

/-!
# The web API that sends messages

`MessageBroker`'s endpoints, each of which converts an object to JSON and publishes it.  What they send
to the business queue is never taken there: strings, maps and users are no lists, and lists come without
an id.
-/

namespace UtilsRepo.Mq

open RabbitMQConfig

variable {Body : Type}

/-! ## 1. Publishing -/

structure User where
  id : ℤ
  name : Option String
  addr : Option String

/-- What the endpoints send. -/
inductive Payload where
  | string (s : String)
  | map (entries : List (String × String))
  | user (user : User)
  | list (list : List (Option String))

/-- `Jackson2JsonMessageConverter` on both ends.  Reading, it trusts every package, so a user comes back
as a user. -/
structure JacksonConverter (Body : Type) extends MessageConverter Body where
  write : Payload → Body
  fromMessage_string : ∀ s id, fromMessage ⟨write (.string s), id⟩ = .ok (.string s)
  fromMessage_map : ∀ entries id, fromMessage ⟨write (.map entries), id⟩ =
    .ok (.map (entries.map fun e => (some e.1, .string e.2)))
  fromMessage_user : ∀ user id, ∃ written, fromMessage ⟨write (.user user), id⟩ =
    .ok (.other written)
  fromMessage_list : ∀ list id, fromMessage ⟨write (.list list), id⟩ =
    .ok (.list (list.map fun s => s.elim .null .string))

/-- The broker with `amq.topic`, an exchange that is always there, and with the two places that messages
never leave: the queue that nobody listens to, and what came back. -/
structure ApiServer (Body : Type) where
  server : MessageServer Body
  -- `topicManualQueue`
  manual : List (Message Body)
  -- what `ReturnCallback` was told of
  returned : List (Message Body)

def brokerTopology : Topology :=
  { topology with exchanges := ⟨"amq.topic", .topic⟩ :: topology.exchanges }

/-- Each publication may be refused, as when there is no connection. -/
abbrev ApiCall (Body β : Type) := Fallible JavaException (Option JavaException × ApiServer Body) β

variable (jackson : JacksonConverter Body)

def ApiServer.publish (exchange routingKey : String) (message : Message Body) (s : ApiServer Body) :
    ApiServer Body :=
  let queues := brokerTopology.route exchange routingKey
  { server :=
      if mqProperties.topicQueue ∈ queues then s.server.step jackson.toMessageConverter (.send message)
      else s.server
    manual := if mqProperties.queueManual ∈ queues then s.manual ++ [message] else s.manual
    -- `setMandatory(true)`
    returned := if queues = [] then s.returned ++ [message] else s.returned }

-- `rabbitTemplate.convertAndSend(exchange, routingKey, object, messagePostProcessor)`
def convertAndSend (exchange routingKey : String) (object : Payload)
    (messagePostProcessor : Message Body → Message Body) : ApiCall Body Unit :=
  Fallible.ofStep fun (refusal, s) =>
    match refusal with
    | some e => (.error e, (none, s))
    | none =>
        let message := messagePostProcessor ⟨jackson.write object, none⟩
        (.ok (), (none, s.publish jackson exchange routingKey message))

/-! ## 2. Endpoints -/

-- what the answer holds under `"result"`
abbrev Result := Option String

/-- The body of every endpoint: send, and answer whether that worked. -/
def sendAndAnswer (send : ApiCall Body Unit) (failure : JavaException → Result) :
    ApiCall Body Result :=
  tryCatch
    (do
      send
      pure (some "success"))
    fun e => pure (failure e)

def user : User := ⟨1, some "tmq", none⟩

-- `POST /sendMessageByTopicWithString`
def sendMsgByTopicWithString : ApiCall Body Result :=
  sendAndAnswer
    (convertAndSend jackson mqProperties.topicExchange mqProperties.topicQueue
      (.string "hello world!") id)
    fun _ => some "failure"

-- `POST /sendMessageByTopicWithMap`
def sendMsgByTopicWithMap : ApiCall Body Result :=
  sendAndAnswer
    (convertAndSend jackson mqProperties.topicExchange mqProperties.topicQueue
      (.map [("test", "hello world")]) id)
    fun _ => some "failure"

-- `POST /sendMessageByTopicWithObject`; the message's own expiration is left out
def sendMsgByTopicWithObject : ApiCall Body Result :=
  sendAndAnswer
    (convertAndSend jackson mqProperties.topicExchange mqProperties.topicQueue (.user user)
      fun message => { message with messageId := some "messageId" })
    fun _ => some "failure"

-- `POST /sendMessageByTopicWithList`
def sendMsgByTopicWithList (list : List (Option String)) : ApiCall Body Result :=
  sendAndAnswer
    (convertAndSend jackson mqProperties.topicExchange mqProperties.topicQueue (.list list) id)
    JavaException.message

-- `POST /manual`
def manual : ApiCall Body Result :=
  sendAndAnswer
    (convertAndSend jackson mqProperties.topicExchange mqProperties.queueManual (.user user) id)
    fun _ => some "failure"

-- `POST /testReturnCallBack`
def testReturnCallBack : ApiCall Body Result :=
  sendAndAnswer (convertAndSend jackson "amq.topic" mqProperties.topicQueue (.user user) id)
    fun _ => some "failure"

inductive Request where
  | string
  | map
  | object
  | list (list : List (Option String))
  | manual
  | returnCallBack

def handle : Request → ApiCall Body Result
  | .string => sendMsgByTopicWithString jackson
  | .map => sendMsgByTopicWithMap jackson
  | .object => sendMsgByTopicWithObject jackson
  | .list list => sendMsgByTopicWithList jackson list
  | .manual => Mq.manual jackson
  | .returnCallBack => testReturnCallBack jackson

/-! ## 3. The server -/

/-- What happens on the broker's side. -/
inductive Internal : Event Body → Prop where
  | handOut (queue : String) (message channel : ℕ) : Internal (.handOut queue message channel)
  | expire (queue : String) (message : ℕ) : Internal (.expire queue message)
  | lose (channels : List ℕ) : Internal (.lose channels)
  | fail : Internal .fail
  | resume (invocation : ℕ) : Internal (.resume invocation)
  | retry (invocation : ℕ) : Internal (.retry invocation)

inductive ApiEvent (Body : Type) where
  /-- A request, and what its publication throws if it does. -/
  | post (request : Request) (refusal : Option JavaException)
  | internal (event : Event Body) (h : Internal event)

namespace ApiServer

def start : ApiServer Body := ⟨MessageServer.start, [], []⟩

def step (s : ApiServer Body) : ApiEvent Body → ApiServer Body
  | .post request refusal => ((handle jackson request).eval (refusal, s)).2.2
  | .internal event _ => { s with server := s.server.step jackson.toMessageConverter event }

def run (events : List (ApiEvent Body)) : ApiServer Body := events.foldl (step jackson) start

end ApiServer

/-! ## 4. What a request sends -/

structure Publication (Body : Type) where
  exchange : String
  routingKey : String
  message : Message Body

/-- What a request publishes if it is let. -/
def publication : Request → Publication Body
  | .string =>
      ⟨mqProperties.topicExchange, mqProperties.topicQueue,
        ⟨jackson.write (.string "hello world!"), none⟩⟩
  | .map =>
      ⟨mqProperties.topicExchange, mqProperties.topicQueue,
        ⟨jackson.write (.map [("test", "hello world")]), none⟩⟩
  | .object =>
      ⟨mqProperties.topicExchange, mqProperties.topicQueue,
        ⟨jackson.write (.user user), some "messageId"⟩⟩
  | .list list =>
      ⟨mqProperties.topicExchange, mqProperties.topicQueue, ⟨jackson.write (.list list), none⟩⟩
  | .manual =>
      ⟨mqProperties.topicExchange, mqProperties.queueManual, ⟨jackson.write (.user user), none⟩⟩
  | .returnCallBack =>
      ⟨"amq.topic", mqProperties.topicQueue, ⟨jackson.write (.user user), none⟩⟩

def Publication.queues (sent : Publication Body) : List String :=
  brokerTopology.route sent.exchange sent.routingKey

/-- What an event puts into a queue, or into none. -/
def ApiEvent.sentTo (queues : List String) : ApiEvent Body → Option (Message Body)
  | .post request none =>
      if (publication jackson request).queues = queues then some (publication jackson request).message
      else none
  | _ => none

/-- What is left of an event on the broker's side. -/
def ApiEvent.narrow : ApiEvent Body → List (Event Body)
  | .internal event _ => [event]
  | e => ((e.sentTo jackson [mqProperties.topicQueue]).map .send).toList

theorem eval_sendAndAnswer (exchange routingKey : String) (object : Payload)
    (messagePostProcessor : Message Body → Message Body) (failure : JavaException → Result)
    (refusal : Option JavaException) (s : ApiServer Body) :
    ((sendAndAnswer (convertAndSend jackson exchange routingKey object messagePostProcessor)
        failure).eval (refusal, s)) =
      match refusal with
      | some e => (.ok (failure e), none, s)
      | none => (.ok (some "success"), none,
          s.publish jackson exchange routingKey (messagePostProcessor ⟨jackson.write object, none⟩)) := by
  rw [sendAndAnswer, Fallible.eval_tryCatch, Fallible.eval_bind, convertAndSend, Fallible.eval_ofStep]
  cases refusal <;> rfl

/-- A request that is refused changes nothing, and any other publishes once. -/
theorem eval_handle (request : Request) (refusal : Option JavaException) (s : ApiServer Body) :
    ((handle jackson request).eval (refusal, s)).2.2 =
      match refusal with
      | some _ => s
      | none => s.publish jackson (publication jackson request).exchange
          (publication jackson request).routingKey (publication jackson request).message := by
  cases request with
  | string | map | object | list | manual | returnCallBack =>
    simp only [handle, sendMsgByTopicWithString, sendMsgByTopicWithMap, sendMsgByTopicWithObject,
      sendMsgByTopicWithList, Mq.manual, testReturnCallBack, eval_sendAndAnswer]
    cases refusal <;> rfl

theorem queues_publication (request : Request) :
    (publication jackson request).queues =
      match request with
      | .string | .map | .object | .list _ => [mqProperties.topicQueue]
      | .manual => [mqProperties.queueManual]
      | .returnCallBack => [] := by
  have hbusiness : brokerTopology.route mqProperties.topicExchange mqProperties.topicQueue =
      [mqProperties.topicQueue] := by decide
  have hmanual : brokerTopology.route mqProperties.topicExchange mqProperties.queueManual =
      [mqProperties.queueManual] := by decide
  have hnone : brokerTopology.route "amq.topic" mqProperties.topicQueue = [] := by decide
  cases request with
  | string | map | object | list => exact hbusiness
  | manual => exact hmanual
  | returnCallBack => exact hnone

/-- Nothing that requests send to the business queue is accepted there. -/
theorem not_accepted_publication {request : Request}
    (h : (publication jackson request).queues = [mqProperties.topicQueue]) :
    ¬ Accepted jackson.toMessageConverter (publication jackson request).message := by
  rintro ⟨⟨elements, hlist⟩, hid⟩
  rw [queues_publication] at h
  cases request with
  | string =>
    rw [publication, jackson.fromMessage_string] at hlist
    cases hlist
  | map =>
    rw [publication, jackson.fromMessage_map] at hlist
    cases hlist
  | object =>
    obtain ⟨written, hwritten⟩ := jackson.fromMessage_user user (some "messageId")
    rw [publication, hwritten] at hlist
    cases hlist
  | list list => exact hid rfl
  | manual => exact absurd h (by decide)
  | returnCallBack => cases h

/-! ## 5. Runs -/

def Event.sent : Event Body → Option (Message Body)
  | .send message => some message
  | _ => none

theorem Sound.messages_step {converter : MessageConverter Body} {s : MessageServer Body}
    (h : Sound converter s) (event : Event Body) :
    (s.step converter event).broker.messages = s.broker.messages ++ event.sent.toList := by
  cases event with
  | send message => rfl
  | lose channels | fail => exact (List.append_nil _).symm
  | expire queue n =>
    simp only [MessageServer.step, Broker.expire, Event.sent, Option.toList_none, List.append_nil]
    split
    · split <;> rfl
    · rfl
  | handOut queue n channel =>
    simp only [MessageServer.step, MessageServer.handOut, Event.sent, Option.toList_none,
      List.append_nil]
    split
    · rename_i hout
      obtain ⟨-, -, -, rfl⟩ := Broker.handOut_cases hout
      rfl
    · rfl
  | retry i =>
    simp only [MessageServer.step, MessageServer.retry, Event.sent, Option.toList_none,
      List.append_nil]
    split <;> rfl
  | resume i =>
    simp only [MessageServer.step, MessageServer.resume, Event.sent, Option.toList_none,
      List.append_nil]
    split
    · rfl
    · rename_i inv hinv
      split
      · rfl
      · rename_i act next hcall
        obtain ⟨-, -, ⟨⟨failing, hact⟩, -⟩ | ⟨⟨how, -, -, hact⟩, -⟩⟩ := h.resume_cases hinv hcall
        · rw [hact]
        · rw [hact]
          rfl

/-- The broker's messages are those sent, in their order. -/
theorem Sound.messages_run {converter : MessageConverter Body} {s : MessageServer Body}
    (h : Sound converter s) (events : List (Event Body)) :
    (events.foldl (MessageServer.step converter) s).broker.messages =
      s.broker.messages ++ events.filterMap Event.sent := by
  induction events generalizing s with
  | nil => exact (List.append_nil _).symm
  | cons event events ih =>
    rw [List.foldl_cons, ih (h.step event), h.messages_step event, List.append_assoc]
    cases hsent : event.sent with
    | none => rw [List.filterMap_cons_none hsent, Option.toList_none, List.nil_append]
    | some message => rw [List.filterMap_cons_some hsent, Option.toList_some, List.singleton_append]

namespace ApiServer

theorem step_eq (s : ApiServer Body) (event : ApiEvent Body) :
    s.step jackson event =
      { server := (event.narrow jackson).foldl
          (MessageServer.step jackson.toMessageConverter) s.server
        manual := s.manual ++ (event.sentTo jackson [mqProperties.queueManual]).toList
        returned := s.returned ++ (event.sentTo jackson []).toList } := by
  cases event with
  | internal event h =>
    simp [step, ApiEvent.narrow, ApiEvent.sentTo]
  | post request refusal =>
    rw [step, eval_handle]
    cases refusal with
    | some e => simp [ApiEvent.narrow, ApiEvent.sentTo]
    | none =>
      have hqueues := queues_publication jackson request
      simp only [publish, ApiEvent.narrow, ApiEvent.sentTo]
      rw [← Publication.queues, hqueues]
      cases request with
      | string | map | object | list | manual | returnCallBack => 
        simp [mqProperties]

theorem foldl_step (s : ApiServer Body) (events : List (ApiEvent Body)) :
    events.foldl (step jackson) s =
      { server := (events.flatMap (ApiEvent.narrow jackson)).foldl
          (MessageServer.step jackson.toMessageConverter) s.server
        manual := s.manual ++ events.filterMap (ApiEvent.sentTo jackson [mqProperties.queueManual])
        returned := s.returned ++ events.filterMap (ApiEvent.sentTo jackson []) } := by
  induction events generalizing s with
  | nil => simp
  | cons event events ih =>
    rw [List.foldl_cons, ih, step_eq, List.flatMap_cons, List.foldl_append]
    simp only [List.append_assoc, List.filterMap_cons]
    congr 2
    · cases event.sentTo jackson [mqProperties.queueManual] <;> rfl
    · cases event.sentTo jackson [] <;> rfl

/-- Behind the web API runs the message server, sent what the requests send to its queue. -/
theorem server_run (events : List (ApiEvent Body)) :
    (run jackson events).server =
      MessageServer.run jackson.toMessageConverter (events.flatMap (ApiEvent.narrow jackson)) := by
  rw [run, foldl_step]
  rfl

theorem sent_narrow (event : ApiEvent Body) :
    (event.narrow jackson).filterMap Event.sent =
      (event.sentTo jackson [mqProperties.topicQueue]).toList := by
  cases event with
  | internal event h => cases h <;> rfl
  | post request refusal =>
    rw [ApiEvent.narrow]
    · cases (ApiEvent.post request refusal).sentTo jackson [mqProperties.topicQueue] <;> rfl
    · exact fun _ _ h => nomatch h

theorem messages_run (events : List (ApiEvent Body)) :
    (run jackson events).server.broker.messages =
      events.filterMap (ApiEvent.sentTo jackson [mqProperties.topicQueue]) := by
  rw [server_run, MessageServer.run, Sound.start.messages_run]
  show [] ++ _ = _
  rw [List.nil_append]
  induction events with
  | nil => rfl
  | cons event events ih =>
    rw [List.flatMap_cons, List.filterMap_append, ih, sent_narrow, List.filterMap_cons]
    cases event.sentTo jackson [mqProperties.topicQueue] <;> rfl

/-- None of the messages on the business queue is accepted. -/
theorem not_accepted (events : List (ApiEvent Body)) {n : ℕ} {m : Message Body}
    (hm : (run jackson events).server.broker.messages[n]? = some m) :
    ¬ Accepted jackson.toMessageConverter m := by
  rw [messages_run] at hm
  obtain ⟨event, -, hsent⟩ := List.mem_filterMap.mp (List.mem_of_getElem? hm)
  cases event with
  | internal event h => cases hsent
  | post request refusal =>
    cases refusal with
    | some e => cases hsent
    | none =>
      rw [ApiEvent.sentTo] at hsent
      split at hsent
      · rename_i hqueues
        cases hsent
        exact not_accepted_publication jackson hqueues
      · cases hsent

end ApiServer

/-- What the requests send is where it belongs, and none of it is ever taken from the business queue. -/
structure NothingTaken (events : List (ApiEvent Body)) (s : ApiServer Body) : Prop where
  messages : s.server.broker.messages =
    events.filterMap (ApiEvent.sentTo jackson [mqProperties.topicQueue])
  manual : s.manual = events.filterMap (ApiEvent.sentTo jackson [mqProperties.queueManual])
  returned : s.returned = events.filterMap (ApiEvent.sentTo jackson [])
  /-- Each message waits on the business queue or has gone to the dead queue. -/
  place : ∀ n < s.server.broker.messages.length,
    ∃ p ∈ businessPlaces, p ≠ .acked mqProperties.topicQueue ∧
      s.server.broker.places.count (p, n) = 1 ∧ ∀ p', (p', n) ∈ s.server.broker.places → p' = p
  rejected : ∀ d how, (d, how) ∈ s.server.broker.settled → d.queue = mqProperties.topicQueue →
    how = .rejected ∧ DeadLettered s.server.broker d.message

theorem ApiServer.nothingTaken (events : List (ApiEvent Body)) :
    NothingTaken jackson events (ApiServer.run jackson events) := by
  have hlost : NothingLost jackson.toMessageConverter (ApiServer.run jackson events).server := by
    rw [ApiServer.server_run]
    exact (Sound.start.run _).1.nothingLost
  have hrejected : ∀ d how, (d, how) ∈ (ApiServer.run jackson events).server.broker.settled →
      d.queue = mqProperties.topicQueue →
        how = .rejected ∧ DeadLettered (ApiServer.run jackson events).server.broker d.message := by
    intro d how hd hqueue
    apply (hlost.settled d how hd hqueue).resolve_left
    rintro ⟨-, m, hm, haccepted⟩
    exact ApiServer.not_accepted jackson events hm haccepted
  have hrun := ApiServer.foldl_step jackson (ApiServer.start : ApiServer Body) events
  constructor
  case messages => exact ApiServer.messages_run jackson events
  case manual => exact (congrArg ApiServer.manual hrun).trans (List.nil_append _)
  case returned => exact (congrArg ApiServer.returned hrun).trans (List.nil_append _)
  case rejected => exact hrejected
  case place =>
    intro n hn
    obtain ⟨p, hp, hcount, honly⟩ := hlost.place n hn
    refine ⟨p, hp, ?_, hcount, honly⟩
    rintro rfl
    have hmem : (.acked mqProperties.topicQueue, n) ∈
        (ApiServer.run jackson events).server.broker.places :=
      List.count_pos_iff.mp (hcount ▸ Nat.one_pos)
    obtain ⟨d, hd, hqueue, -⟩ := mem_places.mp hmem
    cases (hrejected d .acked hd hqueue).1

theorem Consuming.internal {event : Event Body} (h : Consuming event) : Internal event := by
  cases h with
  | handOut queue n channel => exact .handOut queue n channel
  | lose channels => exact .lose channels
  | resume i => exact .resume i

/-- Consumers' events, as the API's server has them. -/
theorem exists_narrow {more : List (Event Body)} (hmore : ∀ e ∈ more, Consuming e) :
    ∃ more' : List (ApiEvent Body), more'.flatMap (ApiEvent.narrow jackson) = more ∧
      ∀ e ∈ more', ∃ event h, e = .internal event h ∧ Consuming event := by
  induction more with
  | nil => exact ⟨[], rfl, by simp⟩
  | cons event more ih =>
    obtain ⟨more', hnarrow, hall⟩ := ih fun e he => hmore e (List.mem_cons_of_mem _ he)
    have hevent : Consuming event := hmore event List.mem_cons_self
    refine ⟨.internal event hevent.internal :: more', ?_, ?_⟩
    · rw [List.flatMap_cons, hnarrow]
      rfl
    · exact List.forall_mem_cons.mpr ⟨⟨event, _, rfl, hevent⟩, hall⟩

/-- Whatever is posted and whatever happens to it, nothing is taken from the business queue, and
consumers started anew can leave all of it acknowledged on the dead queue.  What `manual` sends waits for good. -/
theorem all_dead_lettered (events : List (ApiEvent Body)) :
    NothingTaken jackson events (ApiServer.run jackson events) ∧
      ∃ more : List (ApiEvent Body),
        (∀ e ∈ more, ∃ event h, e = .internal event h ∧ Consuming event) ∧
          ∀ n < (ApiServer.run jackson events).server.broker.messages.length,
            (ApiServer.run jackson (events ++ more)).server.broker.places.count
              (.acked mqProperties.deadQueue, n) = 1 := by
  refine ⟨ApiServer.nothingTaken jackson events, ?_⟩
  have hsound : Sound jackson.toMessageConverter (ApiServer.run jackson events).server := by
    rw [ApiServer.server_run]
    exact (Sound.start.run _).1
  obtain ⟨s', ⟨more, hmore, hrun⟩, honward, hready, hunacked⟩ := exists_worked_off hsound
  obtain ⟨more', hnarrow, hall⟩ := exists_narrow jackson hmore
  have hserver : (ApiServer.run jackson (events ++ more')).server = s' := by
    rw [ApiServer.server_run, List.flatMap_append, hnarrow, MessageServer.run, List.foldl_append]
    rw [ApiServer.server_run, MessageServer.run] at hrun
    exact hrun
  have htaken := ApiServer.nothingTaken jackson (events ++ more')
  refine ⟨more', hall, fun n hn => ?_⟩
  rw [← honward.messages, ← hserver] at hn
  obtain ⟨p, hp, hnot, hcount, -⟩ := htaken.place n hn
  have hmem : (p, n) ∈ (ApiServer.run jackson (events ++ more')).server.broker.places :=
    List.count_pos_iff.mp (hcount ▸ Nat.one_pos)
  rw [hserver] at hmem
  obtain ⟨q, rfl⟩ := acked_of_nothing_waiting hready hunacked hmem
  have hq : q = mqProperties.topicQueue ∨ q = mqProperties.deadQueue := by
    simpa [businessPlaces] using hp
  rcases hq with rfl | rfl
  · exact absurd rfl hnot
  · exact hcount

/-- A converter for bodies that are what was sent. -/
def plainJackson : JacksonConverter Payload where
  fromMessage message :=
    match message.body with
    | .string s => .ok (.string s)
    | .map entries => .ok (.map (entries.map fun e => (some e.1, .string e.2)))
    | .user user => .ok (.other (some (.obj [("id", .int user.id),
        ("name", JavaObject.orNull .str user.name), ("addr", JavaObject.orNull .str user.addr)])))
    | .list list => .ok (.list (list.map fun s => s.elim .null .string))
  fromMessage_ne_null message := by
    intro h
    split at h <;> cases h
  write := id
  fromMessage_string _ _ := rfl
  fromMessage_map _ _ := rfl
  fromMessage_user _ _ := ⟨_, rfl⟩
  fromMessage_list _ _ := rfl

end UtilsRepo.Mq
