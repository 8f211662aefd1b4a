import Contiwatch.Lib.EventSource
import Contiwatch.Lib.JsonText
import Contiwatch.Lib.Runs
import Contiwatch.Lib.Slots

/-!
# The Event Stream of the Servers

A browser follows the servers over one long response of `handleServersStream`. Its channel is in
`serverInfoSubs` as long as the handler runs, and `broadcastStreamEvent` offers every event to all
of them while it holds the lock for reading; it waits for none. Broadcasts, handlers, and the
subscribing and leaving of browsers interleave in any order.

## Main results

* `run_streams` — no broadcast sends on a closed channel, each offers its event exactly once to
  every stream that is subscribed when it begins, a stream passes on what it has taken in the order
  in which it was taken, and it misses an event only behind a backlog of 32.
* `run_heard` — what an `EventSource` has read of the response is the first part of what the stream
  has written, event by event.
* `broadcasts_end` — a broadcast ends by its own steps, whatever the browsers do.
-/

namespace Contiwatch

open EventSource JsonText

/-! ### Events -/

/-- What `json.Marshal` makes of a payload. -/
structure Marshalled where
  json : Json
  printable : json.Printable

/-- `streamEvent`. Its name and its data take one line each. -/
structure StreamEvent where
  event : String
  data : List Char
  event_line : OneLine event.toList
  event_ne : event.toList ≠ []
  data_line : OneLine data
  data_ne : data ≠ []

/-- The events of `broadcastServerInfo`, `broadcastScanResult` and `broadcastScanSnapshot`, and
those with which a stream begins. -/
inductive Topic
  | serverInfo
  | scanResult
  | scanSnapshot
  | serverInfoSnapshot

def Topic.name : Topic → String
  | .serverInfo => "server_info"
  | .scanResult => "scan_result"
  | .scanSnapshot => "scan_snapshot"
  | .serverInfoSnapshot => "server_info_snapshot"

/-- A document without control characters is written on one line. -/
theorem oneLine_render {j : Json} (hj : j.Printable) (d : ℕ) : OneLine (render compact d j) := by
  constructor <;> exact fun h => absurd (printable_render hj d _ h) (by decide)

def Topic.of (topic : Topic) (payload : Marshalled) : StreamEvent where
  event := topic.name
  data := render compact 0 payload.json
  event_line := by cases topic <;> decide
  event_ne := by cases topic <;> decide
  data_line := oneLine_render payload.printable 0
  data_ne := render_ne_nil payload.printable 0

/-- What a handler writes for an event. -/
def StreamEvent.text (e : StreamEvent) : List Char := frame e.event.toList e.data

/-- What a browser should read. -/
def StreamEvent.message (e : StreamEvent) : Message where
  type := e.event.toList
  data := e.data

/-- `sendStreamEvent`: a payload that cannot be marshalled is not sent. -/
def sendStreamEvent (topic : Topic) (payload : Option Marshalled) : List StreamEvent :=
  payload.toList.map topic.of

/-! ### The hub -/

def serverInfoEventBufferSize : ℕ := 32

/-- Where `handleServersStream` stands: before its snapshots, in its loop, at the deferred function,
and returned. -/
inductive StreamPhase
  | greeting
  | looping
  | leaving
  | gone

/-- A stream: its handler, its channel, and what was written to the browser. -/
structure EventStream where
  phase : StreamPhase
  subscribed : Bool
  closed : Bool
  queue : List StreamEvent
  text : List Char

def EventStream.opened : EventStream where
  phase := .greeting
  subscribed := true
  closed := false
  queue := []
  text := []

/-- A call of `broadcastStreamEvent`: the channels that its loop has not reached, and whether it
holds the lock. -/
structure Cast where
  event : StreamEvent
  rest : List ℕ
  holding : Bool

/-- Streams and calls are known by their number; `panicked` says that a closed channel was sent on
or closed. -/
structure Hub where
  streams : List EventStream
  casts : List Cast
  panicked : Bool

def Hub.start : Hub := ⟨[], [], false⟩

/-- Nobody holds the lock for reading. -/
def Hub.Free (h : Hub) : Prop := ∀ cast ∈ h.casts, cast.holding = false

/-- `serverInfoSubs`. -/
def Hub.subs (h : Hub) : List ℕ :=
  (List.range h.streams.length).filter fun c => h.streams[c]?.any EventStream.subscribed

def Hub.setStream (h : Hub) (c : ℕ) (s : EventStream) : Hub :=
  { h with streams := h.streams.set c s }

def Hub.setCast (h : Hub) (i : ℕ) (k : Cast) : Hub :=
  { h with casts := h.casts.set i k }

/-- `select { case ch <- event: default: }`. -/
def Hub.offer (h : Hub) (c : ℕ) (s : EventStream) (e : StreamEvent) : Hub :=
  if s.closed then { h with panicked := true }
  else if s.queue.length < serverInfoEventBufferSize then
    h.setStream c { s with queue := s.queue ++ [e] }
  else h

inductive HubEvent
  | subscribe
  | greet (c : ℕ) (events : List StreamEvent)
  | cast (e : StreamEvent) (audience : List ℕ)
  | send (i c : ℕ) (e : StreamEvent) (taken : Bool)
  | finish (i : ℕ)
  | receive (c : ℕ) (e : StreamEvent)
  | keepAlive (c : ℕ)
  | leave (c : ℕ)
  | unsubscribe (c : ℕ)

/-- The steps. The lock is held for writing by `subscribe` and `unsubscribe`, and for reading from
`cast` to `finish`; a loop over the channels takes them in any order. -/
inductive HubStep : Hub → HubEvent → Hub → Prop
  | subscribe {h : Hub} (hfree : h.Free) :
      HubStep h .subscribe { h with streams := h.streams ++ [.opened] }
  | greet {h : Hub} {c : ℕ} {s : EventStream} (hs : h.streams[c]? = some s)
      (hphase : s.phase = .greeting) (infos results : Option Marshalled) :
      HubStep h
        (.greet c (sendStreamEvent .serverInfoSnapshot infos ++
          sendStreamEvent .scanSnapshot results))
        (h.setStream c { s with
          phase := .looping
          text := s.text ++ (sendStreamEvent .serverInfoSnapshot infos ++
            sendStreamEvent .scanSnapshot results).flatMap StreamEvent.text })
  | cast {h : Hub} (topic : Topic) (payload : Marshalled) :
      HubStep h (.cast (topic.of payload) h.subs)
        { h with casts := h.casts ++ [⟨topic.of payload, h.subs, true⟩] }
  | send {h : Hub} {i c : ℕ} {k : Cast} {s : EventStream} (hk : h.casts[i]? = some k)
      (hheld : k.holding = true) (hc : c ∈ k.rest) (hs : h.streams[c]? = some s) :
      HubStep h (.send i c k.event (!s.closed && s.queue.length < serverInfoEventBufferSize))
        ((h.offer c s k.event).setCast i { k with rest := k.rest.erase c })
  | finish {h : Hub} {i : ℕ} {k : Cast} (hk : h.casts[i]? = some k) (hheld : k.holding = true)
      (hrest : k.rest = []) :
      HubStep h (.finish i) (h.setCast i { k with holding := false })
  | receive {h : Hub} {c : ℕ} {s : EventStream} {e : StreamEvent} {queue : List StreamEvent}
      (hs : h.streams[c]? = some s) (hphase : s.phase = .looping) (hqueue : s.queue = e :: queue) :
      HubStep h (.receive c e)
        (h.setStream c { s with
          queue := queue
          text := s.text ++ if e.data = [] then [] else e.text })
  | keepAlive {h : Hub} {c : ℕ} {s : EventStream} (hs : h.streams[c]? = some s)
      (hphase : s.phase = .looping) :
      HubStep h (.keepAlive c)
        (h.setStream c { s with text := s.text ++ comment " keepalive".toList })
  | leave {h : Hub} {c : ℕ} {s : EventStream} (hs : h.streams[c]? = some s)
      (hphase : s.phase = .looping) :
      HubStep h (.leave c) (h.setStream c { s with phase := .leaving })
  | unsubscribe {h : Hub} {c : ℕ} {s : EventStream} (hs : h.streams[c]? = some s)
      (hphase : s.phase = .leaving) (hfree : h.Free) :
      HubStep h (.unsubscribe c)
        { h.setStream c { s with phase := .gone, subscribed := false, closed := true } with
          panicked := h.panicked || s.closed }

/-! ### Histories -/

/-- The events that the channel of a stream has taken. -/
def taken (c : ℕ) (es : List HubEvent) : List StreamEvent :=
  es.filterMap fun
    | .send _ c' e true => if c' = c then some e else none
    | _ => none

/-- The events that a handler has received. -/
def received (c : ℕ) (es : List HubEvent) : List StreamEvent :=
  es.filterMap fun
    | .receive c' e => if c' = c then some e else none
    | _ => none

/-- The snapshots with which a stream began. -/
def greeted (c : ℕ) (es : List HubEvent) : List StreamEvent :=
  es.flatMap fun
    | .greet c' events => if c' = c then events else []
    | _ => []

/-- The number of streams. -/
def opened (es : List HubEvent) : ℕ :=
  es.countP fun
    | .subscribe => true
    | _ => false

/-- The broadcasts, each with the streams that were subscribed when it began. -/
def broadcasts (es : List HubEvent) : List (StreamEvent × List ℕ) :=
  es.filterMap fun
    | .cast e audience => some (e, audience)
    | _ => none

/-- The streams to which a broadcast has offered its event. -/
def offered (i : ℕ) (es : List HubEvent) : List ℕ :=
  es.filterMap fun
    | .send i' c _ _ => if i' = i then some c else none
    | _ => none

/-! ### The lock -/

/-- A stream is in `serverInfoSubs` exactly if it is subscribed. -/
theorem mem_subs {h : Hub} {c : ℕ} :
    c ∈ h.subs ↔ ∃ s, h.streams[c]? = some s ∧ s.subscribed = true := by
  rw [Hub.subs, List.mem_filter, List.mem_range]
  constructor
  · rintro ⟨hlt, hc⟩
    rw [List.getElem?_eq_getElem hlt] at hc
    exact ⟨_, List.getElem?_eq_getElem hlt, hc⟩
  · rintro ⟨s, hs, hsub⟩
    exact ⟨(List.getElem?_eq_some_iff.mp hs).1, by rw [hs]; exact hsub⟩

/-- No stream is in it twice. -/
theorem nodup_subs (h : Hub) : h.subs.Nodup := List.nodup_range.filter _

/-- Only a stream whose handler has returned is closed. -/
structure EventStream.Kept (s : EventStream) : Prop where
  closed : s.closed = !s.subscribed
  gone : s.subscribed = false → s.phase = .gone

/-- The streams that a broadcast has not reached are subscribed, since nobody leaves while it holds
the lock. -/
structure Hub.Guarded (h : Hub) : Prop where
  calm : h.panicked = false
  kept : ∀ {c : ℕ} {s : EventStream}, h.streams[c]? = some s → s.Kept
  reach : ∀ {i : ℕ} {k : Cast}, h.casts[i]? = some k → k.holding = true → ∀ c ∈ k.rest, c ∈ h.subs

/-- The lock guards the streams at the start. -/
theorem guarded_start : Hub.start.Guarded where
  calm := rfl
  kept h := by cases h
  reach h := by cases h

/-- A change of a stream that leaves it subscribed. -/
theorem mem_subs_setStream {h : Hub} {c : ℕ} {s s' : EventStream} (hs : h.streams[c]? = some s)
    (hsub : s'.subscribed = s.subscribed) {d : ℕ} (hd : d ∈ h.subs) :
    d ∈ (h.setStream c s').subs := by
  obtain ⟨t, ht, htsub⟩ := mem_subs.mp hd
  rw [mem_subs]
  by_cases hdc : d = c
  · subst hdc
    obtain rfl : s = t := Option.some.inj (hs.symm.trans ht)
    exact ⟨s', Slots.set_self hs s', hsub.trans htsub⟩
  · exact ⟨t, (Slots.set_ne hdc s').trans ht, htsub⟩

/-- The streams stay guarded when one of them changes and stays subscribed or not. -/
theorem Hub.Guarded.setStream {h : Hub} (hg : h.Guarded) {c : ℕ} {s s' : EventStream}
    (hs : h.streams[c]? = some s) (hsub : s'.subscribed = s.subscribed) (hkept : s'.Kept) :
    (h.setStream c s').Guarded where
  calm := hg.calm
  kept hd := by
    obtain ⟨-, rfl⟩ | ⟨-, hd⟩ := Slots.of_set hs hd
    · exact hkept
    · exact hg.kept hd
  reach hk hheld d hd := mem_subs_setStream hs hsub (hg.reach hk hheld d hd)

/-- Where nobody holds the lock for reading, no call holds it. -/
theorem not_held {h : Hub} (hfree : h.Free) {i : ℕ} {k : Cast} (hk : h.casts[i]? = some k)
    (hheld : k.holding = true) : False := by
  rw [hfree k (List.mem_of_getElem? hk)] at hheld
  cases hheld

/-- What a broadcast offers is taken or passed over, since the channel is open. -/
theorem offer_eq {h : Hub} {s : EventStream} (hclosed : s.closed = false) (c : ℕ)
    (e : StreamEvent) :
    h.offer c s e =
      if s.queue.length < serverInfoEventBufferSize then
        h.setStream c { s with queue := s.queue ++ [e] }
      else h := by
  rw [Hub.offer, hclosed, if_neg Bool.false_ne_true]

/-- An event that is offered to an open channel leaves the streams guarded. -/
theorem Hub.Guarded.offer {h : Hub} (hg : h.Guarded) {c : ℕ} {s : EventStream}
    (hs : h.streams[c]? = some s) (hclosed : s.closed = false) (e : StreamEvent) :
    (h.offer c s e).Guarded := by
  rw [offer_eq hclosed]
  split
  · exact hg.setStream hs rfl ⟨(hg.kept hs).closed, (hg.kept hs).gone⟩
  · exact hg

/-- Offering an event changes no call. -/
theorem offer_casts (h : Hub) (c : ℕ) (s : EventStream) (e : StreamEvent) :
    (h.offer c s e).casts = h.casts := by
  unfold Hub.offer
  split
  · rfl
  · split <;> rfl

/-- A call that takes no lock and no further stream leaves the streams guarded. -/
theorem Hub.Guarded.setCast {h : Hub} (hg : h.Guarded) {i : ℕ} {k k' : Cast}
    (hk : h.casts[i]? = some k) (hheld : k'.holding = true → k.holding = true)
    (hrest : ∀ c ∈ k'.rest, c ∈ k.rest) : (h.setCast i k').Guarded where
  calm := hg.calm
  kept := hg.kept
  reach hj hjheld c hc := by
    obtain ⟨-, rfl⟩ | ⟨-, hj⟩ := Slots.of_set hk hj
    · exact hg.reach hk (hheld hjheld) c (hrest c hc)
    · exact hg.reach hj hjheld c hc

/-- **The lock keeps the streams of a broadcast open.** -/
theorem step_guarded {h h' : Hub} {e : HubEvent} (hg : h.Guarded) (hstep : HubStep h e h') :
    h'.Guarded := by
  cases hstep with
  | subscribe hfree =>
      refine ⟨hg.calm, fun hc => ?_, fun hk hheld => (not_held hfree hk hheld).elim⟩
      obtain ⟨-, rfl⟩ | hc := Slots.of_append hc
      · exact ⟨rfl, nofun⟩
      · exact hg.kept hc
  | greet hs hphase infos results =>
      exact hg.setStream hs rfl ⟨(hg.kept hs).closed, fun hsub => by
        rw [(hg.kept hs).gone hsub] at hphase
        cases hphase⟩
  | cast topic payload =>
      refine ⟨hg.calm, hg.kept, fun hk hheld => ?_⟩
      obtain ⟨-, rfl⟩ | hk := Slots.of_append hk
      · exact fun c hc => hc
      · exact hg.reach hk hheld
  | @send i c k s hk hheld hc hs =>
      obtain ⟨t, ht, hsub⟩ := mem_subs.mp (hg.reach hk hheld c hc)
      obtain rfl : s = t := Option.some.inj (hs.symm.trans ht)
      have hclosed : s.closed = false := by rw [(hg.kept hs).closed, hsub]; rfl
      have hk' : (h.offer c s k.event).casts[i]? = some k := by rw [offer_casts, hk]
      exact (hg.offer hs hclosed k.event).setCast hk' id fun d hd => List.mem_of_mem_erase hd
  | finish hk hheld hrest => exact hg.setCast hk (fun _ => hheld) fun _ => id
  | receive hs hphase hqueue =>
      exact hg.setStream hs rfl ⟨(hg.kept hs).closed, (hg.kept hs).gone⟩
  | keepAlive hs hphase => exact hg.setStream hs rfl ⟨(hg.kept hs).closed, (hg.kept hs).gone⟩
  | leave hs hphase =>
      exact hg.setStream hs rfl ⟨(hg.kept hs).closed, fun hsub => by
        rw [(hg.kept hs).gone hsub] at hphase
        cases hphase⟩
  | @unsubscribe c s hs hphase hfree =>
      have hsub : s.subscribed = true := by
        by_contra hsub
        rw [(hg.kept hs).gone (Bool.not_eq_true _ ▸ hsub)] at hphase
        cases hphase
      refine ⟨?_, fun hd => ?_, fun hk hheld => (not_held hfree hk hheld).elim⟩
      · rw [hg.calm, (hg.kept hs).closed, hsub]
        rfl
      · obtain ⟨-, rfl⟩ | ⟨-, hd⟩ := Slots.of_set hs hd
        · exact ⟨rfl, fun _ => rfl⟩
        · exact hg.kept hd

/-- The streams are guarded in every state that is reached. -/
theorem run_guarded {es : List HubEvent} {h : Hub} (hrun : Run HubStep .start es h) : h.Guarded :=
  hrun.state_invariant _ guarded_start step_guarded

/-! ### What a stream passes on -/

/-- The stream whose channel, text or subscription an event is about. -/
def HubEvent.stream? : HubEvent → Option ℕ
  | .greet c _ | .send _ c _ true | .receive c _ | .unsubscribe c => some c
  | _ => none

/-- A history without events that are about a stream. -/
structure Silent (c : ℕ) (es : List HubEvent) : Prop where
  taken : taken c es = []
  received : received c es = []
  greeted : greeted c es = []
  staying : .unsubscribe c ∉ es

/-- An event that is not about a stream is silent for it. -/
theorem silent_singleton {c : ℕ} {e : HubEvent} (h : e.stream? ≠ some c) : Silent c [e] := by
  cases e with
  | greet d events =>
      have hd : d ≠ c := fun hd => h (congrArg some hd)
      exact ⟨rfl, rfl, by simp [greeted, hd], by simp⟩
  | send i d e accepted =>
      cases accepted with
      | false => exact ⟨rfl, rfl, rfl, by simp⟩
      | true =>
          have hd : d ≠ c := fun hd => h (congrArg some hd)
          exact ⟨by simp [taken, hd], rfl, rfl, by simp⟩
  | receive d e =>
      have hd : d ≠ c := fun hd => h (congrArg some hd)
      exact ⟨rfl, by simp [received, hd], rfl, by simp⟩
  | unsubscribe d =>
      have hd : c ≠ d := fun hd => h (congrArg some hd.symm)
      exact ⟨rfl, rfl, rfl, by simp [hd]⟩
  | subscribe | cast | finish | keepAlive | leave => exact ⟨rfl, rfl, rfl, by simp⟩

/-- An event that is about no stream is silent for all. -/
theorem silent_of_none {e : HubEvent} (he : e.stream? = none) (c : ℕ) : Silent c [e] :=
  silent_singleton (he ▸ (Option.some_ne_none c).symm)

/-- What the history says of a stream. -/
structure EventStream.Follows (s : EventStream) (c : ℕ) (es : List HubEvent) : Prop where
  fifo : taken c es = received c es ++ s.queue
  bounded : s.queue.length ≤ serverInfoEventBufferSize
  early : s.phase = .greeting → greeted c es = [] ∧ received c es = []
  heard : EventSource.read s.text =
    .atLine (.between ((greeted c es ++ received c es).map StreamEvent.message))
  staying : s.subscribed = true ↔ .unsubscribe c ∉ es

section

variable {c : ℕ} {es fs : List HubEvent}

/-- What a channel has taken in two runs, one after the other. -/
theorem taken_append : taken c (es ++ fs) = taken c es ++ taken c fs := List.filterMap_append

/-- What a handler has received in two runs, one after the other. -/
theorem received_append : received c (es ++ fs) = received c es ++ received c fs :=
  List.filterMap_append

/-- The snapshots of two runs, one after the other. -/
theorem greeted_append : greeted c (es ++ fs) = greeted c es ++ greeted c fs :=
  List.flatMap_append

/-- The number of streams that two runs have opened. -/
theorem opened_append : opened (es ++ fs) = opened es + opened fs := List.countP_append

/-- Two silent runs are silent, one after the other. -/
theorem Silent.append (h : Silent c es) (h' : Silent c fs) : Silent c (es ++ fs) where
  taken := by rw [taken_append, h.taken, h'.taken, List.nil_append]
  received := by rw [received_append, h.received, h'.received, List.nil_append]
  greeted := by rw [greeted_append, h.greeted, h'.greeted, List.nil_append]
  staying hmem := (List.mem_append.mp hmem).elim h.staying h'.staying

/-- A stream that nothing happens to follows the longer history. -/
theorem EventStream.Follows.silent {s : EventStream} (h : s.Follows c es) (h' : Silent c fs) :
    s.Follows c (es ++ fs) where
  fifo := by rw [taken_append, received_append, h'.taken, h'.received, List.append_nil,
    List.append_nil, h.fifo]
  bounded := h.bounded
  early := by
    rw [greeted_append, received_append, h'.greeted, h'.received, List.append_nil, List.append_nil]
    exact h.early
  heard := by
    rw [greeted_append, received_append, h'.greeted, h'.received, List.append_nil, List.append_nil]
    exact h.heard
  staying := by
    rw [h.staying, List.mem_append, or_iff_left h'.staying]

end

/-- What the history says of the streams. -/
structure Hub.Follows (h : Hub) (es : List HubEvent) : Prop where
  opened : opened es = h.streams.length
  each : ∀ {c : ℕ} {s : EventStream}, h.streams[c]? = some s → s.Follows c es
  fresh : ∀ {c : ℕ}, h.streams.length ≤ c → Silent c es

/-- There is no stream at the start. -/
theorem follows_start : Hub.start.Follows [] where
  opened := rfl
  each h := by cases h
  fresh _ := ⟨rfl, rfl, rfl, List.not_mem_nil⟩

section

variable {h h' : Hub} {es : List HubEvent} {e : HubEvent}

/-- A step that is about no stream. -/
theorem Hub.Follows.same (hf : h.Follows es) (hstreams : h'.streams = h.streams)
    (hopened : Contiwatch.opened [e] = 0) (he : e.stream? = none) : h'.Follows (es ++ [e]) where
  opened := by rw [opened_append, hopened, hf.opened, hstreams, Nat.add_zero]
  each hs := (hf.each (hstreams ▸ hs)).silent (silent_of_none he _)
  fresh hc := (hf.fresh (hstreams ▸ hc)).append (silent_of_none he _)

/-- A step that is about one stream. -/
theorem Hub.Follows.set (hf : h.Follows es) {c : ℕ} {s s' : EventStream}
    (hs : h.streams[c]? = some s) (hstreams : h'.streams = h.streams.set c s')
    (hopened : Contiwatch.opened [e] = 0) (he : ∀ d ≠ c, e.stream? ≠ some d)
    (hs' : s'.Follows c (es ++ [e])) : h'.Follows (es ++ [e]) where
  opened := by rw [opened_append, hopened, hf.opened, hstreams, List.length_set, Nat.add_zero]
  each ht := by
    rw [hstreams] at ht
    obtain ⟨rfl, rfl⟩ | ⟨hne, ht⟩ := Slots.of_set hs ht
    · exact hs'
    · exact (hf.each ht).silent (silent_singleton (he _ hne))
  fresh hd := by
    rw [hstreams, List.length_set] at hd
    have hlt := (List.getElem?_eq_some_iff.mp hs).1
    exact (hf.fresh hd).append (silent_singleton (he _ (by omega)))

end

/-- Whoever reads to the end of what a stream has written reads the next event. -/
theorem read_text {text : List Char} {ms : List Message} (h : read text = .atLine (.between ms))
    (e : StreamEvent) : read (text ++ e.text) = .atLine (.between (ms ++ [e.message])) := by
  calc read (text ++ e.text) = (read text).read e.text := read_append text e.text
    _ = (Reader.atLine (.between ms)).read e.text := by rw [h]
    _ = .atLine (.between (ms ++ [e.message])) :=
      read_frame e.event_line e.event_ne e.data_line ms

/-- Texts of events that are read from the start of a line are read as their messages. -/
theorem read_texts {text : List Char} {ms : List Message} (h : read text = .atLine (.between ms))
    (events : List StreamEvent) :
    read (text ++ events.flatMap StreamEvent.text) =
      .atLine (.between (ms ++ events.map StreamEvent.message)) := by
  induction events generalizing text ms with
  | nil => rwa [List.flatMap_nil, List.map_nil, List.append_nil, List.append_nil]
  | cons e events ih =>
      rw [List.flatMap_cons, ← List.append_assoc, ih (read_text h e), List.map_cons,
        List.append_assoc, List.singleton_append]

section

variable {c : ℕ} {s : EventStream} {es : List HubEvent}

/-- A stream that writes its snapshots follows the history. -/
theorem EventStream.Follows.greet (h : s.Follows c es) (hphase : s.phase = .greeting)
    (events : List StreamEvent) :
    { s with phase := .looping, text := s.text ++ events.flatMap StreamEvent.text }.Follows c
      (es ++ [HubEvent.greet c events]) := by
  obtain ⟨hgreeted, hreceived⟩ := h.early hphase
  have hnew : greeted c (es ++ [.greet c events]) = events := by
    rw [greeted_append, hgreeted]
    simp [greeted]
  have hsame : received c (es ++ [.greet c events]) = received c es := by
    rw [received_append]
    exact List.append_nil _
  refine ⟨?_, h.bounded, nofun, ?_, ?_⟩
  · rw [taken_append, hsame, ← h.fifo]
    exact List.append_nil _
  · have hread := h.heard
    rw [hgreeted, hreceived] at hread
    rw [hnew, hsame, hreceived, List.append_nil]
    exact read_texts hread events
  · rw [h.staying]
    simp

/-- So does one whose channel takes an event. -/
theorem EventStream.Follows.accept (h : s.Follows c es)
    (hroom : s.queue.length < serverInfoEventBufferSize) (i : ℕ) (e : StreamEvent) :
    { s with queue := s.queue ++ [e] }.Follows c
      (es ++ [HubEvent.send i c e true]) := by
  have hnew : taken c [.send i c e true] = [e] := by simp [taken]
  have hsame : received c (es ++ [.send i c e true]) = received c es := by
    rw [received_append]
    exact List.append_nil _
  have hgreeted : greeted c (es ++ [.send i c e true]) = greeted c es := by
    rw [greeted_append]
    exact List.append_nil _
  refine ⟨?_, ?_, ?_, ?_, ?_⟩
  · rw [taken_append, hnew, hsame, h.fifo, List.append_assoc]
  · rw [List.length_append]
    exact hroom
  · rw [hgreeted, hsame]
    exact h.early
  · rw [hgreeted, hsame]
    exact h.heard
  · rw [h.staying]
    simp

/-- So does one whose handler receives an event and writes it. -/
theorem EventStream.Follows.receive {e : StreamEvent} {queue : List StreamEvent}
    (h : s.Follows c es) (hphase : s.phase = .looping) (hqueue : s.queue = e :: queue) :
    { s with queue := queue, text := s.text ++ if e.data = [] then [] else e.text }.Follows c
      (es ++ [HubEvent.receive c e]) := by
  have hnew : received c (es ++ [.receive c e]) = received c es ++ [e] := by
    rw [received_append]
    simp [received]
  have hgreeted : greeted c (es ++ [.receive c e]) = greeted c es := by
    rw [greeted_append]
    exact List.append_nil _
  refine ⟨?_, ?_, ?_, ?_, ?_⟩
  · have hsame : taken c (es ++ [HubEvent.receive c e]) = taken c es := by
      rw [taken_append]
      exact List.append_nil _
    rw [hsame, hnew, h.fifo, hqueue, List.append_assoc, List.singleton_append]
  · have hle := h.bounded
    rw [hqueue, List.length_cons] at hle
    exact Nat.le_of_succ_le hle
  · rw [hphase]
    nofun
  · rw [hgreeted, hnew, if_neg e.data_ne, ← List.append_assoc, List.map_append]
    exact read_text h.heard e
  · rw [h.staying]
    simp

/-- So does one that leaves. -/
theorem EventStream.Follows.unsubscribe (h : s.Follows c es) :
    { s with phase := .gone, subscribed := false, closed := true }.Follows c
      (es ++ [HubEvent.unsubscribe c]) := by
  have hsame : received c (es ++ [.unsubscribe c]) = received c es := by
    rw [received_append]
    exact List.append_nil _
  have hgreeted : greeted c (es ++ [.unsubscribe c]) = greeted c es := by
    rw [greeted_append]
    exact List.append_nil _
  refine ⟨?_, h.bounded, nofun, ?_, ?_⟩
  · rw [taken_append, hsame, ← h.fifo]
    exact List.append_nil _
  · rw [hgreeted, hsame]
    exact h.heard
  · simp

/-- So does one that writes a comment, which is no message. -/
theorem EventStream.Follows.keepAlive (h : s.Follows c es) :
    { s with text := s.text ++ comment " keepalive".toList }.Follows c es where
  fifo := h.fifo
  bounded := h.bounded
  early := h.early
  heard := by
    have hline : OneLine " keepalive".toList := by decide
    calc EventSource.read (s.text ++ comment " keepalive".toList)
        = (EventSource.read s.text).read (comment " keepalive".toList) := read_append _ _
      _ = _ := by rw [h.heard, read_comment hline]
  staying := h.staying

end

/-- **A step keeps what the history says of the streams.** -/
theorem step_follows {h h' : Hub} {es : List HubEvent} {e : HubEvent} (hf : h.Follows es)
    (hstep : HubStep h e h') : h'.Follows (es ++ [e]) := by
  cases hstep with
  | subscribe hfree =>
      have hsilent : ∀ c, Silent c [HubEvent.subscribe] := fun c => silent_singleton nofun
      refine ⟨?_, fun hc => ?_, fun hc => ?_⟩
      · rw [opened_append, hf.opened, List.length_append]
        rfl
      · obtain ⟨rfl, rfl⟩ | hc := Slots.of_append hc
        · obtain ⟨htaken, hreceived, hgreeted, hstaying⟩ :=
            (hf.fresh (Nat.le_refl _)).append (hsilent _)
          exact ⟨by rw [htaken, hreceived]; rfl, Nat.zero_le _, fun _ => ⟨hgreeted, hreceived⟩,
            by rw [hgreeted, hreceived]; rfl, iff_of_true rfl hstaying⟩
        · exact (hf.each hc).silent (hsilent _)
      · rw [List.length_append] at hc
        exact (hf.fresh (by omega)).append (hsilent _)
  | greet hs hphase infos results =>
      exact hf.set hs rfl rfl (fun d hd hsome => hd (Option.some.inj hsome).symm)
        ((hf.each hs).greet hphase _)
  | cast topic payload => exact hf.same rfl rfl rfl
  | @send i c k s hk hheld hc hs =>
      by_cases haccepts : s.closed = false ∧ s.queue.length < serverInfoEventBufferSize
      · obtain ⟨hclosed, hroom⟩ := haccepts
        have hflag :
            (!s.closed && decide (s.queue.length < serverInfoEventBufferSize)) = true := by
          rw [hclosed, decide_eq_true hroom]
          rfl
        rw [offer_eq hclosed, if_pos hroom, hflag]
        exact hf.set hs rfl rfl (fun d hd hsome => hd (Option.some.inj hsome).symm)
          ((hf.each hs).accept hroom i k.event)
      · have hflag :
            (!s.closed && decide (s.queue.length < serverInfoEventBufferSize)) = false := by
          simpa using haccepts
        rw [hflag]
        refine hf.same ?_ rfl rfl
        unfold Hub.offer
        split
        · rfl
        · rw [if_neg fun hroom => haccepts ⟨by simpa using ‹¬ s.closed = true›, hroom⟩]
          rfl
  | finish hk hheld hrest => exact hf.same rfl rfl rfl
  | receive hs hphase hqueue =>
      exact hf.set hs rfl rfl (fun d hd hsome => hd (Option.some.inj hsome).symm)
        ((hf.each hs).receive hphase hqueue)
  | @keepAlive c s hs hphase =>
      exact hf.set hs rfl rfl (fun d _ => nofun)
        ((hf.each hs).silent (silent_singleton (e := .keepAlive c) nofun)).keepAlive
  | @leave c s hs hphase =>
      have hold := (hf.each hs).silent (silent_singleton (e := .leave c) (c := c) nofun)
      exact hf.set hs rfl rfl (fun d _ => nofun)
        ⟨hold.fifo, hold.bounded, nofun, hold.heard, hold.staying⟩
  | unsubscribe hs hphase hfree =>
      exact hf.set hs rfl rfl (fun d hd hsome => hd (Option.some.inj hsome).symm)
        (hf.each hs).unsubscribe

/-- After every run the streams follow the history. -/
theorem run_follows {es : List HubEvent} {h : Hub} (hrun : Run HubStep .start es h) :
    h.Follows es :=
  hrun.invariant (fun es h => h.Follows es) follows_start step_follows

/-! ### What a broadcast offers -/

/-- The broadcasts of two runs, one after the other. -/
theorem broadcasts_append (es fs : List HubEvent) :
    broadcasts (es ++ fs) = broadcasts es ++ broadcasts fs := List.filterMap_append

/-- The offers of a broadcast in two runs, one after the other. -/
theorem offered_append (i : ℕ) (es fs : List HubEvent) :
    offered i (es ++ fs) = offered i es ++ offered i fs := List.filterMap_append

/-- What the history says of the broadcasts: each has offered its event to its audience, but for
the streams that it has not reached. -/
structure Accounted (casts : List Cast) (es : List HubEvent) : Prop where
  count : (broadcasts es).length = casts.length
  each : ∀ {i : ℕ} {k : Cast}, casts[i]? = some k → ∃ audience,
    (broadcasts es)[i]? = some (k.event, audience) ∧ (offered i es ++ k.rest).Perm audience
  done : ∀ {i : ℕ} {k : Cast}, casts[i]? = some k → k.holding = false → k.rest = []
  fresh : ∀ {i : ℕ}, casts.length ≤ i → offered i es = []
  sends : ∀ {i c : ℕ} {e : StreamEvent} {accepted : Bool}, .send i c e accepted ∈ es →
    ∃ audience, (broadcasts es)[i]? = some (e, audience)

/-- There is no broadcast at the start. -/
theorem accounted_start : Accounted [] [] where
  count := rfl
  each h := by cases h
  done h := by cases h
  fresh _ := rfl
  sends h := by cases h

/-- The event is one of a broadcast. -/
def HubEvent.IsCasting : HubEvent → Prop
  | .cast .. | .send .. => True
  | _ => False

/-- An event of no broadcast begins none and offers nothing. -/
theorem not_casting {e : HubEvent} (he : ¬ e.IsCasting) :
    broadcasts [e] = [] ∧ (∀ i, offered i [e] = []) ∧ ∀ i c e' accepted,
      e ≠ .send i c e' accepted := by
  cases e with
  | cast | send => exact (he trivial).elim
  | subscribe | greet | finish | receive | keepAlive | leave | unsubscribe =>
      exact ⟨rfl, fun _ => rfl, fun _ _ _ _ => nofun⟩

/-- Such an event leaves the account of the broadcasts. -/
theorem Accounted.same {casts : List Cast} {es : List HubEvent} (h : Accounted casts es)
    {e : HubEvent} (he : ¬ e.IsCasting) : Accounted casts (es ++ [e]) := by
  obtain ⟨hcasts, hoffers, hsends⟩ := not_casting he
  have hbroadcasts : broadcasts (es ++ [e]) = broadcasts es := by
    rw [broadcasts_append, hcasts, List.append_nil]
  have hoffered : ∀ i, offered i (es ++ [e]) = offered i es := fun i => by
    rw [offered_append, hoffers, List.append_nil]
  refine ⟨?_, fun hk => ?_, h.done, fun hi => ?_, fun hmem => ?_⟩
  · rw [hbroadcasts, h.count]
  · rw [hbroadcasts, hoffered]
    exact h.each hk
  · rw [hoffered, h.fresh hi]
  · rw [hbroadcasts]
    obtain hmem | hmem := List.mem_append.mp hmem
    · exact h.sends hmem
    · exact (hsends _ _ _ _ (List.mem_singleton.mp hmem).symm).elim

/-- A broadcast that begins has its whole audience before it. -/
theorem Accounted.begin {casts : List Cast} {es : List HubEvent} (h : Accounted casts es)
    (e : StreamEvent) (audience : List ℕ) :
    Accounted (casts ++ [⟨e, audience, true⟩]) (es ++ [.cast e audience]) := by
  have hbroadcasts : broadcasts (es ++ [.cast e audience]) = broadcasts es ++ [(e, audience)] :=
    broadcasts_append es _
  have hoffered : ∀ i, offered i (es ++ [.cast e audience]) = offered i es := fun i => by
    rw [offered_append]
    exact List.append_nil _
  refine ⟨?_, fun {i k} hk => ?_, fun hk => ?_, fun hi => ?_, fun hmem => ?_⟩
  · rw [hbroadcasts, List.length_append, List.length_append, h.count]
    rfl
  · rw [hbroadcasts, hoffered]
    obtain ⟨rfl, rfl⟩ | hk := Slots.of_append hk
    · refine ⟨audience, ?_, ?_⟩
      · rw [← h.count]
        exact Slots.append_self _ _
      · rw [h.fresh (Nat.le_refl _)]
        exact List.Perm.refl _
    · obtain ⟨audience', hat, hperm⟩ := h.each hk
      exact ⟨audience', Slots.append_of_some hat, hperm⟩
  · obtain ⟨-, rfl⟩ | hk := Slots.of_append hk
    · nofun
    · exact h.done hk
  · rw [List.length_append] at hi
    rw [hoffered, h.fresh (by omega)]
  · rw [hbroadcasts]
    obtain hmem | hmem := List.mem_append.mp hmem
    · obtain ⟨audience', hat⟩ := h.sends hmem
      exact ⟨audience', Slots.append_of_some hat⟩
    · cases List.mem_singleton.mp hmem

/-- An offer goes from those that are left to those that were made. -/
theorem Accounted.send {casts : List Cast} {es : List HubEvent} (h : Accounted casts es)
    {i c : ℕ} {k : Cast} (hk : casts[i]? = some k) (hheld : k.holding = true) (hc : c ∈ k.rest)
    (accepted : Bool) :
    Accounted (casts.set i { k with rest := k.rest.erase c })
      (es ++ [.send i c k.event accepted]) := by
  have hbroadcasts : broadcasts (es ++ [.send i c k.event accepted]) = broadcasts es := by
    rw [broadcasts_append]
    exact List.append_nil _
  have hself : offered i (es ++ [.send i c k.event accepted]) = offered i es ++ [c] := by
    rw [offered_append]
    simp [offered]
  have hother : ∀ j ≠ i, offered j (es ++ [.send i c k.event accepted]) = offered j es := by
    intro j hj
    rw [offered_append]
    simp [offered, Ne.symm hj]
  obtain ⟨audience, hat, hperm⟩ := h.each hk
  refine ⟨?_, fun hj => ?_, fun hj => ?_, fun {j} hj => ?_, fun hmem => ?_⟩
  · rw [hbroadcasts, List.length_set, h.count]
  · rw [hbroadcasts]
    obtain ⟨rfl, rfl⟩ | ⟨hne, hj⟩ := Slots.of_set hk hj
    · refine ⟨audience, hat, ?_⟩
      rw [hself, List.append_assoc, List.singleton_append]
      exact ((List.perm_cons_erase hc).symm.append_left _).trans hperm
    · rw [hother _ hne]
      exact h.each hj
  · obtain ⟨-, rfl⟩ | ⟨-, hj⟩ := Slots.of_set hk hj
    · intro hreleased
      rw [hheld] at hreleased
      cases hreleased
    · exact h.done hj
  · rw [List.length_set] at hj
    have hlt := (List.getElem?_eq_some_iff.mp hk).1
    rw [hother j (by omega), h.fresh hj]
  · rw [hbroadcasts]
    obtain hmem | hmem := List.mem_append.mp hmem
    · exact h.sends hmem
    · cases List.mem_singleton.mp hmem
      exact ⟨audience, hat⟩

/-- A broadcast ends when it has reached its audience. -/
theorem Accounted.finish {casts : List Cast} {es : List HubEvent} (h : Accounted casts es)
    {i : ℕ} {k : Cast} (hk : casts[i]? = some k) (hrest : k.rest = []) :
    Accounted (casts.set i { k with holding := false }) es where
  count := by rw [List.length_set, h.count]
  each hj := by
    obtain ⟨rfl, rfl⟩ | ⟨-, hj⟩ := Slots.of_set hk hj
    · exact h.each (k := k) hk
    · exact h.each hj
  done hj hreleased := by
    obtain ⟨-, rfl⟩ | ⟨-, hj⟩ := Slots.of_set hk hj
    · exact hrest
    · exact h.done hj hreleased
  fresh hi := h.fresh (List.length_set ▸ hi)
  sends := h.sends

/-- A step keeps the account of the broadcasts. -/
theorem step_accounted {h h' : Hub} {es : List HubEvent} {e : HubEvent}
    (ha : Accounted h.casts es) (hstep : HubStep h e h') : Accounted h'.casts (es ++ [e]) := by
  cases hstep with
  | cast topic payload => exact ha.begin _ _
  | send hk hheld hc hs =>
      rw [Hub.setCast, offer_casts]
      exact ha.send hk hheld hc _
  | finish hk hheld hrest => exact (ha.finish hk hrest).same id
  | subscribe | greet | receive | keepAlive | leave | unsubscribe => exact ha.same id

/-- So does every run. -/
theorem run_accounted {es : List HubEvent} {h : Hub} (hrun : Run HubStep .start es h) :
    Accounted h.casts es :=
  hrun.invariant (fun es h => Accounted h.casts es) accounted_start step_accounted

/-! ### Main results -/

/-- What holds after every run: a closed channel is never used; a stream passes on what it has
taken in that order, and keeps at most 32 events; it passes over an event only when it keeps that
many; the audience of a broadcast are the streams that have begun and not left; and a broadcast that
has ended has offered its event to each of them once. -/
structure StreamsRight (es : List HubEvent) (h : Hub) : Prop where
  calm : h.panicked = false
  fifo : ∀ (c : ℕ) (s : EventStream), h.streams[c]? = some s →
    taken c es = received c es ++ s.queue ∧ s.queue.length ≤ 32
  missed : ∀ (before : List HubEvent) (i c : ℕ) (e : StreamEvent) (after : List HubEvent),
    es = before ++ .send i c e false :: after →
    (taken c before).length = (received c before).length + 32
  audience : ∀ (before : List HubEvent) (e : StreamEvent) (subs : List ℕ) (after : List HubEvent),
    es = before ++ .cast e subs :: after →
    subs.Nodup ∧ ∀ c, c ∈ subs ↔ c < opened before ∧ .unsubscribe c ∉ before
  offers : ∀ (i : ℕ) (k : Cast), h.casts[i]? = some k → k.holding = false →
    ∃ subs, (broadcasts es)[i]? = some (k.event, subs) ∧ (offered i es).Perm subs
  sends : ∀ (i c : ℕ) (e : StreamEvent) (accepted : Bool), .send i c e accepted ∈ es →
    ∃ subs, (broadcasts es)[i]? = some (e, subs)

/-- A stream that misses an event keeps as many as its channel holds. -/
theorem missed_full {h h' : Hub} {es : List HubEvent} {i c : ℕ} {e : StreamEvent}
    (hrun : Run HubStep .start es h) (hstep : HubStep h (.send i c e false) h') :
    (taken c es).length = (received c es).length + serverInfoEventBufferSize := by
  have hg := run_guarded hrun
  generalize hlabel : HubEvent.send i c e false = label at hstep
  cases hstep with
  | @send i c k s hk hheld hc hs =>
      obtain ⟨rfl, rfl, rfl, hflag⟩ := HubEvent.send.inj hlabel
      obtain ⟨t, ht, hsub⟩ := mem_subs.mp (hg.reach hk hheld c hc)
      obtain rfl : s = t := Option.some.inj (hs.symm.trans ht)
      rw [(hg.kept hs).closed, hsub] at hflag
      have hfull : ¬ s.queue.length < serverInfoEventBufferSize := by simpa using hflag.symm
      have hfollows := (run_follows hrun).each hs
      have hbounded := hfollows.bounded
      rw [hfollows.fifo, List.length_append]
      omega
  | _ => cases hlabel

/-- The audience of a broadcast. -/
theorem audience_subs {h h' : Hub} {es : List HubEvent} {e : StreamEvent} {subs : List ℕ}
    (hrun : Run HubStep .start es h) (hstep : HubStep h (.cast e subs) h') :
    subs.Nodup ∧ ∀ c, c ∈ subs ↔ c < opened es ∧ .unsubscribe c ∉ es := by
  have hf := run_follows hrun
  generalize hlabel : HubEvent.cast e subs = label at hstep
  cases hstep with
  | cast topic payload =>
      obtain ⟨-, rfl⟩ := HubEvent.cast.inj hlabel
      refine ⟨nodup_subs h, fun c => ?_⟩
      rw [mem_subs, hf.opened]
      constructor
      · rintro ⟨s, hs, hsub⟩
        exact ⟨(List.getElem?_eq_some_iff.mp hs).1, (hf.each hs).staying.mp hsub⟩
      · rintro ⟨hlt, hstaying⟩
        have hs := List.getElem?_eq_getElem hlt
        exact ⟨_, hs, (hf.each hs).staying.mpr hstaying⟩
  | _ => cases hlabel

/-- A stream, and an event that it passes on. -/
def liveEvent : StreamEvent := Topic.serverInfo.of ⟨.str "up", trivial⟩

def liveEvents : List HubEvent :=
  [.subscribe, .greet 0 [], .cast liveEvent [0], .send 0 0 liveEvent true, .receive 0 liveEvent,
    .finish 0]

/-- The hub while that event is on its way. -/
def liveHub (queue : List StreamEvent) (text : List Char) (rest : List ℕ) (holding : Bool) :
    Hub where
  streams := [⟨.looping, true, false, queue, text⟩]
  casts := [⟨liveEvent, rest, holding⟩]
  panicked := false

/-- A stream is opened, and a broadcast begins. -/
theorem run_live_cast :
    Run HubStep .start [.subscribe, .greet 0 [], .cast liveEvent [0]] (liveHub [] [] [0] true) := by
  have hopened : Run HubStep .start [.subscribe] ⟨[.opened], [], false⟩ :=
    .single (.subscribe nofun)
  have hgreeted := hopened.snoc (.greet (c := 0) rfl rfl none none)
  exact hgreeted.snoc (.cast .serverInfo ⟨.str "up", trivial⟩)

/-- Its channel takes the event. -/
theorem step_live_send :
    HubStep (liveHub [] [] [0] true) (.send 0 0 liveEvent true) (liveHub [liveEvent] [] [] true) :=
  .send (k := ⟨liveEvent, [0], true⟩) (s := ⟨.looping, true, false, [], []⟩) rfl rfl
    List.mem_cons_self rfl

/-- The broadcast ends. -/
theorem step_live_finish (queue : List StreamEvent) (text : List Char) :
    HubStep (liveHub queue text [] true) (.finish 0) (liveHub queue text [] false) :=
  .finish (k := ⟨liveEvent, [], true⟩) rfl rfl rfl

/-- The handler passes the event on, and the stream has its text. -/
theorem run_live : Run HubStep .start liveEvents (liveHub [] liveEvent.text [] false) := by
  have hreceived := (run_live_cast.snoc step_live_send).snoc (.receive (c := 0) rfl rfl rfl)
  rw [if_neg liveEvent.data_ne] at hreceived
  exact hreceived.snoc (step_live_finish [] liveEvent.text)

/-- **Every event reaches every subscribed stream once and in order**, whatever the interleaving,
unless 32 events are waiting there. -/
theorem run_streams {es : List HubEvent} {h : Hub} (hrun : Run HubStep .start es h) :
    StreamsRight es h where
  calm := (run_guarded hrun).calm
  fifo _ _ hs := ⟨((run_follows hrun).each hs).fifo, ((run_follows hrun).each hs).bounded⟩
  missed before i c e after hes := by
    rw [hes] at hrun
    obtain ⟨u, v, hbefore, hstep⟩ := hrun.step_at
    exact missed_full hbefore hstep
  audience before e subs after hes := by
    rw [hes] at hrun
    obtain ⟨u, v, hbefore, hstep⟩ := hrun.step_at
    exact audience_subs hbefore hstep
  offers i k hk hreleased := by
    obtain ⟨subs, hat, hperm⟩ := (run_accounted hrun).each hk
    rw [(run_accounted hrun).done hk hreleased, List.append_nil] at hperm
    exact ⟨subs, hat, hperm⟩
  sends _ _ _ _ hmem := (run_accounted hrun).sends hmem

/-- The run of one event is as every run is. -/
theorem run_streams_live : StreamsRight liveEvents (liveHub [] liveEvent.text [] false) :=
  run_streams run_live

/-- **A browser reads what its stream has written**: the snapshots, and then the events in the order
in which the handler has received them. What has arrived so far is read as the first part of
that. -/
theorem run_heard {es : List HubEvent} {h : Hub} (hrun : Run HubStep .start es h) {c : ℕ}
    {s : EventStream} (hs : h.streams[c]? = some s) :
    messages s.text = (greeted c es ++ received c es).map StreamEvent.message ∧
      ∀ arrived, arrived <+: s.text →
        messages arrived <+: (greeted c es ++ received c es).map StreamEvent.message := by
  have hread : messages s.text = (greeted c es ++ received c es).map StreamEvent.message := by
    rw [messages, ((run_follows hrun).each hs).heard]
    rfl
  refine ⟨hread, fun arrived harrived => ?_⟩
  rw [← hread]
  exact messages_prefix harrived

/-- The browser reads the one event. -/
theorem run_heard_live : messages liveEvent.text = [liveEvent.message] :=
  (run_heard (c := 0) run_live rfl).1

/-! ### Broadcasts end -/

/-- The steps of a broadcast after its beginning. -/
def HubEvent.IsBroadcasting : HubEvent → Prop
  | .send .. | .finish _ => True
  | _ => False

/-- The steps that a call still takes. -/
def Cast.pending (k : Cast) : ℕ := if k.holding then k.rest.length + 1 else 0

def Hub.pending (h : Hub) : ℕ := (h.casts.map Cast.pending).sum

/-- Each step of a broadcast lowers what is pending by one. -/
theorem step_pending {h h' : Hub} {e : HubEvent} (hstep : HubStep h e h')
    (he : e.IsBroadcasting) : h'.pending + 1 = h.pending := by
  cases hstep with
  | @send i c k s hk hheld hc hs =>
      have hsum := Slots.sum_map_set Cast.pending hk { k with rest := k.rest.erase c }
      have hpos := List.length_pos_of_mem hc
      have hold : k.pending = k.rest.length + 1 := if_pos hheld
      have hnew : Cast.pending { k with rest := k.rest.erase c } = k.rest.length - 1 + 1 := by
        rw [Cast.pending, if_pos hheld, List.length_erase_of_mem hc]
      rw [hold, hnew] at hsum
      show (((h.offer c s k.event).casts.set i _).map Cast.pending).sum + 1 = h.pending
      rw [offer_casts, Hub.pending]
      omega
  | @finish i k hk hheld hrest =>
      have hsum := Slots.sum_map_set Cast.pending hk { k with holding := false }
      have hold : k.pending = 1 := by rw [Cast.pending, if_pos hheld, hrest]; rfl
      have hnew : Cast.pending { k with holding := false } = 0 := rfl
      rwa [hold, hnew, Nat.add_zero] at hsum
  | _ => exact he.elim

/-- While the lock is held for reading, a broadcast can take a step. -/
theorem broadcast_progress {h : Hub} (hg : h.Guarded) (hheld : ¬ h.Free) :
    ∃ e h', e.IsBroadcasting ∧ HubStep h e h' := by
  simp only [Hub.Free, not_forall, Bool.not_eq_false] at hheld
  obtain ⟨k, hmem, hk⟩ := hheld
  obtain ⟨i, hi⟩ := List.mem_iff_getElem?.mp hmem
  rcases hrest : k.rest with _ | ⟨c, rest⟩
  · exact ⟨.finish i, _, trivial, .finish hi hk hrest⟩
  · have hc : c ∈ k.rest := hrest ▸ List.mem_cons_self
    obtain ⟨s, hs, -⟩ := mem_subs.mp (hg.reach hi hk c hc)
    exact ⟨.send i c k.event _, _, trivial, .send hi hk hc hs⟩

/-- **A broadcast never waits for a browser**: the steps of the broadcasts that are in progress are
as many as there are channels to reach, and when no such step is left, the lock is free. -/
theorem broadcasts_end {es fs : List HubEvent} {h h' : Hub} (hrun : Run HubStep .start es h)
    (hown : Run HubStep h fs h') (hfs : ∀ e ∈ fs, e.IsBroadcasting) :
    fs.length + h'.pending = h.pending ∧
      (h'.Free ∨ ∃ e h'', e.IsBroadcasting ∧ HubStep h' e h'') := by
  constructor
  · induction hown with
    | nil => exact Nat.zero_add _
    | snoc hown hstep ih =>
        have hfirst := ih fun e he => hfs e (List.mem_append_left _ he)
        have hlast := step_pending hstep (hfs _ (List.mem_append_right _ List.mem_cons_self))
        rw [List.length_append, List.length_singleton]
        omega
  · by_cases hfree : h'.Free
    · exact Or.inl hfree
    · exact Or.inr (broadcast_progress (run_guarded (hrun.append hown)) hfree)

/-- The broadcast of the sample ends after two steps. -/
theorem broadcasts_end_live :
    2 + (liveHub [liveEvent] [] [] false).pending = (liveHub [] [] [0] true).pending :=
  (broadcasts_end run_live_cast ((Run.single step_live_send).snoc (step_live_finish _ _))
    (List.forall_mem_cons.mpr ⟨trivial, List.forall_mem_cons.mpr ⟨trivial, nofun⟩⟩)).1

end Contiwatch
