import Lhre.Theory.Dict
import Lhre.Theory.ReplayBuffer

/-!
# `Viewer.LiveStream` — live telemetry on its way to a page

`viewer_tool/src/lib/kafka` and `app/api/kafka-stream/route.ts`: the server publishes each message of the consumer on a bus and keeps
the last of each topic; a stream replays from what is kept and then follows the bus; a page shares one stream among its panels
(`sseBus.ts`), and closes it and asks for another whenever the topics it needs change. A topic is a name without commas and outer
blanks, and a panel's handler does not throw.

## Contents
- **Messages.** `KafkaEvent`, `getMessageCarType`, `wants`.
- **The server.** `Server`, `Server.publish`, `replay`, `Server.connect`, `Server.abort`, `Server.cancel`.
- **The page.** `Client`, `openIfNeeded`, `subscribeSSE`, `unsubscribe`, `setSSEPath`, `restartSSE`, `stopSSE`, `onmessage`.
- **Both.** `World`, `Event`, `World.step`, `World.run`.
- **A panel.** `Panel`, `Panel.processEvent`, `Panel.receive`, `Panel.flush`, `Panel.run`.
-/

namespace Lhre.Viewer

/-! ## Messages -/

/-- The cars that a stream can be asked for. -/
inductive Car where
  | orion
  | angelique
deriving DecidableEq, Repr

/-- A message of a topic. `carHeader` is its header `car_type`, and `carField` the string that its payload has as `car_type` or else
    as `carType`. The `serial` numbers the publications; nothing reads it. -/
structure KafkaEvent where
  topic : String
  carHeader : Option String := none
  carField : Option String := none
  payload : String := ""
  serial : ℕ := 0
deriving DecidableEq, Repr

/-- What `trim` removes. -/
def isBlank (c : Char) : Bool :=
  let n := c.toNat
  (9 ≤ n && n ≤ 13) || n = 32 || n = 0xa0 || n = 0x1680 || (0x2000 ≤ n && n ≤ 0x200a) || n = 0x2028 || n = 0x2029 ||
    n = 0x202f || n = 0x205f || n = 0x3000 || n = 0xfeff

/-- `value.trim().toLowerCase()`, for a comparison with a name in ASCII. -/
def trimLower (value : String) : List Char :=
  (((value.toList.dropWhile isBlank).reverse.dropWhile isBlank).reverse).map Char.toLower

/-- `normalizeCar`. -/
def normalizeCar : Option String → Option Car
  | none => none
  | some value =>
      let v := trimLower value
      if v = "orion".toList then some .orion
      else if v = "angelique".toList then some .angelique
      else none

/-- `getMessageCarType`. -/
def getMessageCarType (msg : KafkaEvent) : Option Car :=
  match normalizeCar msg.carHeader with
  | some car => some car
  | none => normalizeCar msg.carField

/-- Whether a stream for a car, or for all, takes a message. -/
def wants (requestedCar : Option Car) (msg : KafkaEvent) : Bool :=
  match requestedCar, getMessageCarType msg with
  | some requestedCar, some msgCar => decide (msgCar = requestedCar)
  | _, _ => true

/-! ## The server -/

/-- `HistoryMode`. -/
inductive HistoryMode where
  | none
  | latest
  | all
deriving DecidableEq, Repr

/-- The path of the route with its parameters `car` and `history`. -/
structure SsePath where
  car : Option Car := none
  history : HistoryMode := .latest
deriving DecidableEq, Repr

/-- What a stream is asked for. -/
structure Url where
  path : SsePath := {}
  topics : List String
deriving DecidableEq, Repr

/-- The topics of a request that are not empty. -/
def Url.requested (url : Url) : List String := url.topics.filter fun t => t ≠ ""

/-- A stream: `closed` is the variable of `start`, `writable` whether its controller still takes data, and `out` what was written. -/
structure Conn where
  url : Url
  closed : Bool := false
  writable : Bool := true
  out : List KafkaEvent := []
deriving DecidableEq, Repr

/-- The server: the kept messages, the handlers on the bus by stream and topic, and the streams. All that was `published` and how much
    of it when the buffers were last `cleared` is history, which nothing reads. -/
structure Server where
  buffers : String → List KafkaEvent := fun _ => []
  handlers : List (ℕ × String) := []
  conns : List Conn := []
  published : List KafkaEvent := []
  cleared : ℕ := 0

/-- `BUFFER_SIZE`, where the environment does not set it. -/
def bufferSize : ℕ := 200

/-- `bufferMessage`. -/
def bufferMessage (buffers : String → List KafkaEvent) (event : KafkaEvent) : String → List KafkaEvent :=
  Function.update buffers event.topic (ReplayBuffer.push bufferSize (buffers event.topic) event)

/-- `bus.emit` of a message: the streams after it, and whether all handlers returned. A stream that takes no more data throws, and the
    handlers after it are not called. -/
def emit (msg : KafkaEvent) : List (ℕ × String) → List Conn → List Conn × Bool
  | [], conns => (conns, true)
  | (id, t) :: handlers, conns =>
      if t = msg.topic then
        match conns[id]? with
        | none => emit msg handlers conns
        | some c =>
            if wants c.url.path.car msg then
              if c.writable then emit msg handlers (conns.set id { c with out := c.out ++ [msg] })
              else (conns, false)
            else emit msg handlers conns
      else emit msg handlers conns

/-- A message in `eachMessage`, or a routed one in `emitRoutedEvent`: it is emitted and then kept. -/
def Server.publish (s : Server) (event : KafkaEvent) : Server :=
  let msg := { event with serial := s.published.length }
  let (conns, returned) := emit msg s.handlers s.conns
  { s with
    conns := conns
    buffers := if returned then bufferMessage s.buffers msg else s.buffers
    published := s.published ++ [msg] }

/-- What `start` writes before it follows the bus. -/
def replay (buffers : String → List KafkaEvent) (url : Url) : List KafkaEvent :=
  match url.path.history with
  | .none => []
  | .latest => url.requested.flatMap fun t => (buffers t).getLast?.toList.filter (wants url.path.car)
  | .all => url.requested.flatMap fun t => (buffers t).filter (wants url.path.car)

/-- `GET` and `start`; a request without topics is refused. -/
def Server.connect (s : Server) (url : Url) : Server :=
  if url.requested = [] then s
  else
    { s with
      conns := s.conns ++ [{ url := url, out := replay s.buffers url }]
      handlers := s.handlers ++ url.requested.map fun t => (s.conns.length, t) }

/-- `cleanup`, when the request is aborted. -/
def Server.abort (s : Server) (id : ℕ) : Server :=
  match s.conns[id]? with
  | none => s
  | some c =>
      if c.closed then s
      else
        { s with
          conns := s.conns.set id { c with closed := true, writable := false }
          handlers := s.handlers.filter fun handler => handler.1 ≠ id }

/-- `cancel`, when the stream is no longer read. -/
def Server.cancel (s : Server) (id : ℕ) : Server :=
  { s with conns := s.conns.modify id fun c => { c with closed := true, writable := false } }

/-- `clearAllBuffers`. -/
def Server.clearAllBuffers (s : Server) : Server := { s with buffers := fun _ => [], cleared := s.published.length }

/-! ## The page -/

/-- An `EventSource`: its address, and the stream it reads with how many messages of it have arrived. -/
structure Source where
  url : Url
  link : Option (ℕ × ℕ) := none
deriving DecidableEq, Repr

/-- The page: `listeners` has the handlers of each topic, and `calls` every call of a handler so far. -/
structure Client where
  ssePath : SsePath := {}
  listeners : Dict String (List ℕ) := []
  es : Option Source := none
  currentUrl : Option Url := none
  calls : List (ℕ × KafkaEvent) := []

/-- `buildUrl`. -/
def Client.buildUrl (c : Client) : Url := { path := c.ssePath, topics := c.listeners.keys }

/-- `openIfNeeded`. -/
def Client.openIfNeeded (c : Client) : Client :=
  if c.listeners = [] then { c with es := none, currentUrl := none }
  else if c.es.isSome ∧ c.currentUrl = some c.buildUrl then c
  else { c with es := some { url := c.buildUrl }, currentUrl := some c.buildUrl }

/-- `subscribeSSE`. -/
def Client.subscribeSSE (c : Client) (topic : String) (handler : ℕ) (path : Option SsePath) : Client :=
  let set := (c.listeners.get? topic).getD []
  let set' := if handler ∈ set then set else set ++ [handler]
  { c with ssePath := path.getD c.ssePath, listeners := c.listeners.set topic set' }.openIfNeeded

/-- What `subscribeSSE` returns, called. -/
def Client.unsubscribe (c : Client) (topic : String) (handler : ℕ) : Client :=
  match c.listeners.get? topic with
  | none => c
  | some set =>
      let set' := set.filter fun fn => fn ≠ handler
      let listeners :=
        if set' = [] then c.listeners.filter fun entry => entry.1 ≠ topic else c.listeners.set topic set'
      { c with listeners := listeners }.openIfNeeded

/-- `setSSEPath`. -/
def Client.setSSEPath (c : Client) (next : SsePath) : Client :=
  if next = c.ssePath then c else { c with ssePath := next, es := none }.openIfNeeded

/-- `restartSSE`. -/
def Client.restartSSE (c : Client) : Client :=
  if c.es = none then c else { c with es := none }.openIfNeeded

/-- `stopSSE`. -/
def Client.stopSSE (c : Client) : Client := { c with es := none, currentUrl := none }

/-- `es.onmessage`. -/
def Client.onmessage (c : Client) (evt : KafkaEvent) : Client :=
  if evt.topic = "" then c
  else { c with calls := c.calls ++ ((c.listeners.get? evt.topic).getD []).map fun fn => (fn, evt) }

/-! ## Both -/

/-- A page and the server. -/
structure World where
  server : Server := {}
  client : Client := {}

/-- What can happen. Streams of other pages come with `connect`; those of the page with `accept`, and its messages with `deliver`. -/
inductive Event where
  | publish (event : KafkaEvent)
  | clearAllBuffers
  | connect (url : Url)
  | abort (id : ℕ)
  | cancel (id : ℕ)
  | subscribe (topic : String) (handler : ℕ) (path : Option SsePath)
  | unsubscribe (topic : String) (handler : ℕ)
  | setPath (next : SsePath)
  | restart
  | stop
  | accept
  | deliver
  | lost

/-- The server answers the request of the page. -/
def World.accept (w : World) : World :=
  match w.client.es with
  | some { url := url, link := none } =>
      if url.requested = [] then w
      else
        { server := w.server.connect url
          client := { w.client with es := some { url := url, link := some (w.server.conns.length, 0) } } }
  | _ => w

/-- The next message of its stream reaches the page. -/
def World.deliver (w : World) : World :=
  match w.client.es with
  | some { url := url, link := some (id, arrived) } =>
      match w.server.conns[id]?.bind fun c => c.out[arrived]? with
      | none => w
      | some evt =>
          { w with client := { w.client.onmessage evt with es := some { url := url, link := some (id, arrived + 1) } } }
  | _ => w

/-- The connection of the page breaks; its `EventSource` asks again. -/
def World.lost (w : World) : World :=
  { w with client := { w.client with es := w.client.es.map fun es => { es with link := none } } }

/-- One event; one that cannot happen changes nothing. -/
def World.step (w : World) : Event → World
  | .publish event => { w with server := w.server.publish event }
  | .clearAllBuffers => { w with server := w.server.clearAllBuffers }
  | .connect url => { w with server := w.server.connect url }
  | .abort id => { w with server := w.server.abort id }
  | .cancel id => { w with server := w.server.cancel id }
  | .subscribe topic handler path => { w with client := w.client.subscribeSSE topic handler path }
  | .unsubscribe topic handler => { w with client := w.client.unsubscribe topic handler }
  | .setPath next => { w with client := w.client.setSSEPath next }
  | .restart => { w with client := w.client.restartSSE }
  | .stop => { w with client := w.client.stopSSE }
  | .accept => w.accept
  | .deliver => w.deliver
  | .lost => w.lost

/-- Some events. -/
def World.run (w : World) (events : List Event) : World := events.foldl World.step w

/-! ## A panel -/

/-- The handler of a panel (`useKafkaStream`): the message that waits, when its timer is due, and every message shown with its time. -/
structure Panel where
  lastUiEmitAt : ℤ := 0
  pendingEvent : Option KafkaEvent := none
  flushTimer : Option ℤ := none
  shown : List (ℤ × KafkaEvent) := []
deriving DecidableEq, Repr

/-- What a panel is given: `accepts` is its filter, false also where parsing or selecting throws. -/
structure PanelOptions where
  sampleMs : ℤ := 50
  accepts : KafkaEvent → Bool := fun _ => true

/-- `processEvent`, which reads the clock once more. -/
def Panel.processEvent (p : Panel) (o : PanelOptions) (evt : KafkaEvent) (done : ℤ) : Panel :=
  if o.accepts evt then { p with lastUiEmitAt := done, shown := p.shown ++ [(done, evt)] } else p

/-- The handler of `subscribeSSE`. -/
def Panel.receive (p : Panel) (o : PanelOptions) (evt : KafkaEvent) (now done : ℤ) : Panel :=
  let minSampleMs := max 0 o.sampleMs
  let elapsed := now - p.lastUiEmitAt
  if 0 < minSampleMs ∧ 0 < p.lastUiEmitAt ∧ elapsed < minSampleMs then
    { p with
      pendingEvent := some evt
      flushTimer := some (p.flushTimer.getD (now + (minSampleMs - elapsed))) }
  else p.processEvent o evt done

/-- The timer; before it is due nothing happens. -/
def Panel.flush (p : Panel) (o : PanelOptions) (now done : ℤ) : Panel :=
  match p.flushTimer with
  | none => p
  | some due =>
      if now < due then p
      else
        let cleared := { p with flushTimer := none, pendingEvent := none }
        match p.pendingEvent with
        | none => cleared
        | some evt => cleared.processEvent o evt done

/-- A message for the panel, or a chance for its timer. -/
inductive PanelEvent where
  | receive (evt : KafkaEvent) (now done : ℤ)
  | flush (now done : ℤ)
deriving DecidableEq, Repr

/-- One event. -/
def Panel.step (o : PanelOptions) (p : Panel) : PanelEvent → Panel
  | .receive evt now done => p.receive o evt now done
  | .flush now done => p.flush o now done

/-- Some events. -/
def Panel.run (o : PanelOptions) (p : Panel) (events : List PanelEvent) : Panel := events.foldl (Panel.step o) p

end Lhre.Viewer
