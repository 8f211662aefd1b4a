import Contiwatch.Lib.Runs
import Contiwatch.LogWrites

/-!
# Two Connections Joined by a Controller

`proxyWebSockets` of `internal/server/ws_proxy.go` joins the connection of a browser with that of an
agent: a pump for each direction copies one message after the other, and the first failure of either
closes both. Reads, writes and the closing of the two pumps interleave in any order, and every one
of them can fail.

## Main results

* `run_relayed` — what a peer receives is what the other one has sent, message by message; only the
  last one can be cut off, and at most one that was read is missing.
* `run_ends` — a proxy whose peers send finitely much does finitely many steps, and once a pump has
  failed it cannot come to rest before both connections are closed and both pumps have returned.
* `log_relayed` — the bytes of a container's log that reach the browser are a prefix of the log.
-/

namespace Contiwatch

/-! ### Connections -/

/-- The two connections. -/
inductive Side
  | a
  | b
  deriving DecidableEq

def Side.other : Side → Side
  | .a => .b
  | .b => .a

structure WsMessage where
  kind : ℕ
  data : List UInt8
  deriving DecidableEq

/-- The errors of a connection: a message is too long, the peer has closed, what it sends is no
WebSocket, and failures of the network. -/
inductive WsError
  | readLimit
  | close (code : ℕ) (text : String)
  | protocol (text : String)
  | eof
  | other (text : String)

/-- The close frame that a connection sends by itself when a read fails. -/
def WsError.answer? : WsError → Option (ℕ × String)
  | .readLimit => some (1009, "")
  | .close code _ => some (code, "")
  | .protocol text => some (1002, text)
  | .eof | .other _ => none

/-- `websocketCloseCode`: the code and the text for the peers. -/
def websocketCloseCode : Option WsError → ℕ × String
  | none => (1000, "")
  | some .readLimit => (1009, "message exceeds stream limit")
  | some (.close code text) => (if code = 0 then 1000 else code, text)
  | some .eof => (1001, "")
  | some (.protocol _) | some (.other _) => (1001, "")

/-- What has been written to a connection: messages, and at most one close frame after them, since a
connection refuses to write anything behind it. -/
structure ProxyConn where
  messages : List WsMessage
  close : Option (ℕ × String)
  shut : Bool

/-- A connection can take something; whether it does is up to the network. -/
def ProxyConn.Writable (c : ProxyConn) : Prop := c.close = none ∧ c.shut = false

/-- A connection on which a read has failed. -/
def ProxyConn.answer (c : ProxyConn) (e : WsError) (answered : Bool) : ProxyConn :=
  if answered then { c with close := e.answer? } else c

/-! ### Pumps -/

/-- Where a pump stands. -/
inductive PumpPhase
  /-- before `NextReader` -/
  | reading
  /-- with a reader for the message -/
  | opening (m : WsMessage)
  /-- in `CopyBuffer`, with what has been written and what has not been read -/
  | copying (kind : ℕ) (copied rest : List UInt8)
  /-- before `writer.Close` -/
  | finishing (kind : ℕ) (copied : List UInt8) (err : Option WsError)
  /-- before `closeBoth` -/
  | failed (code : ℕ) (text : String)
  /-- in `closeBoth` -/
  | closing
  | ended

/-- The pump has left its loop. -/
def PumpPhase.Over : PumpPhase → Prop
  | .failed .. | .closing | .ended => True
  | _ => False

/-- The operations of `closeBoth`. -/
inductive CloseOp
  | control (x : Side) (code : ℕ) (text : String)
  | shut (x : Side)

/-- `closeBoth`, without the closing of `done`. -/
def closeOps (code : ℕ) (text : String) : List CloseOp :=
  [.control .a code text, .control .b code text, .shut .a, .shut .b]

/-- The state of a proxy. The pump of a side reads from it and has got `read` messages; `todo` is
what remains of `closeBoth` once it has been entered. -/
structure Proxy where
  conn : Side → ProxyConn
  phase : Side → PumpPhase
  read : Side → ℕ
  todo : Option (List CloseOp)

def Proxy.start : Proxy where
  conn := fun _ => ⟨[], none, false⟩
  phase := fun _ => .reading
  read := fun _ => 0
  todo := none

def Proxy.setPhase (p : Proxy) (s : Side) (f : PumpPhase) : Proxy :=
  { p with phase := Function.update p.phase s f }

def Proxy.setConn (p : Proxy) (x : Side) (c : ProxyConn) : Proxy :=
  { p with conn := Function.update p.conn x c }

/-- The message is complete. -/
def Proxy.deliver (p : Proxy) (x : Side) (m : WsMessage) : Proxy :=
  p.setConn x { p.conn x with messages := (p.conn x).messages ++ [m] }

inductive ProxyEvent
  | next (s : Side)
  | readFails (s : Side) (e : WsError) (answered : Bool)
  | deadlineFails (s : Side)
  | opens (s : Side)
  | openFails (s : Side) (e : WsError)
  | copies (s : Side) (n : ℕ)
  | stops (s : Side) (err : Option WsError) (answered : Bool)
  | finishes (s : Side) (err : Option WsError)
  | enters (s : Side)
  | skips (s : Side)
  | controls (x : Side) (ok : Bool)
  | shuts (x : Side)
  | leaves (s : Side)
  | cut (x : Side)

/-- The failure that ends a pump, as it is passed to `closeBoth`. -/
def ProxyEvent.failure? : ProxyEvent → Option (Side × ℕ × String)
  | .readFails s e _ | .openFails s e | .finishes s (some e) =>
      some (s, websocketCloseCode (some e))
  | .deadlineFails s => some (s, 1001, "")
  | _ => none

/-- The phase after the message, or the failure. -/
def afterMessage : Option WsError → PumpPhase
  | none => .reading
  | some e => .failed (websocketCloseCode (some e)).1 (websocketCloseCode (some e)).2

section

-- what the peers send, and what `NextReader` returns as their messages
variable (sent : Side → List WsMessage)

/-- A step of one of the pumps, or of `protectContainerStream`, which closes a connection when its
session or its request ends or a ping fails. Bytes are written when a message is complete, at the
latest, so that a closed connection is noticed by then. -/
inductive ProxyStep (p : Proxy) : ProxyEvent → Proxy → Prop
  | next {s : Side} {m : WsMessage} (hphase : p.phase s = .reading)
      (hm : (sent s)[p.read s]? = some m) :
      ProxyStep p (.next s)
        { p.setPhase s (.opening m) with read := Function.update p.read s (p.read s + 1) }
  | readFails {s : Side} {e : WsError} {answered : Bool} (hphase : p.phase s = .reading)
      (hanswer : answered = true → (p.conn s).Writable) :
      ProxyStep p (.readFails s e answered)
        ((p.setConn s ((p.conn s).answer e answered)).setPhase s (afterMessage (some e)))
  | deadlineFails {s : Side} {m : WsMessage} (hphase : p.phase s = .opening m) :
      ProxyStep p (.deadlineFails s) (p.setPhase s (.failed 1001 ""))
  | opens {s : Side} {m : WsMessage} (hphase : p.phase s = .opening m) :
      ProxyStep p (.opens s) (p.setPhase s (.copying m.kind [] m.data))
  | openFails {s : Side} {m : WsMessage} {e : WsError} (hphase : p.phase s = .opening m) :
      ProxyStep p (.openFails s e) (p.setPhase s (afterMessage (some e)))
  | copies {s : Side} {kind : ℕ} {copied rest : List UInt8} {n : ℕ}
      (hphase : p.phase s = .copying kind copied rest) (hpos : 0 < n) (hle : n ≤ rest.length)
      (hbuffer : n ≤ 32 * 1024) :
      ProxyStep p (.copies s n)
        (p.setPhase s (.copying kind (copied ++ rest.take n) (rest.drop n)))
  | stops {s : Side} {kind : ℕ} {copied rest : List UInt8} {err : Option WsError}
      {answered : Bool} (hphase : p.phase s = .copying kind copied rest)
      (hend : err = none → rest = []) (hanswer : answered = true → (p.conn s).Writable) :
      ProxyStep p (.stops s err answered)
        ((p.setConn s (err.elim (p.conn s) fun e => (p.conn s).answer e answered)).setPhase s
          (.finishing kind copied err))
  | finishes {s : Side} {kind : ℕ} {copied : List UInt8} {err : Option WsError}
      (hphase : p.phase s = .finishing kind copied err) (hconn : (p.conn s.other).Writable) :
      ProxyStep p (.finishes s err)
        ((p.deliver s.other ⟨kind, copied⟩).setPhase s (afterMessage err))
  | finishFails {s : Side} {kind : ℕ} {copied : List UInt8} {err : Option WsError} {e : WsError}
      (hphase : p.phase s = .finishing kind copied err) :
      ProxyStep p (.finishes s (some (err.getD e))) (p.setPhase s (afterMessage (err.getD e)))
  | enters {s : Side} {code : ℕ} {text : String} (hphase : p.phase s = .failed code text)
      (honce : p.todo = none) :
      ProxyStep p (.enters s) { p.setPhase s .closing with todo := some (closeOps code text) }
  | skips {s : Side} {code : ℕ} {text : String} (hphase : p.phase s = .failed code text)
      (hdone : p.todo = some []) : ProxyStep p (.skips s) (p.setPhase s .ended)
  | controls {x : Side} {code : ℕ} {text : String} {ops : List CloseOp}
      (htodo : p.todo = some (.control x code text :: ops)) (hconn : (p.conn x).Writable) :
      ProxyStep p (.controls x true)
        { p.setConn x { p.conn x with close := some (code, text) } with todo := some ops }
  | controlFails {x : Side} {code : ℕ} {text : String} {ops : List CloseOp}
      (htodo : p.todo = some (.control x code text :: ops)) :
      ProxyStep p (.controls x false) { p with todo := some ops }
  | shuts {x : Side} {ops : List CloseOp} (htodo : p.todo = some (.shut x :: ops)) :
      ProxyStep p (.shuts x)
        { p.setConn x { p.conn x with shut := true } with todo := some ops }
  | leaves {s : Side} (hphase : p.phase s = .closing) (hdone : p.todo = some []) :
      ProxyStep p (.leaves s) (p.setPhase s .ended)
  | cut {x : Side} (hopen : (p.conn x).shut = false) :
      ProxyStep p (.cut x) (p.setConn x { p.conn x with shut := true })

end

/-! ### What the messages of a side have become -/

/-- The messages `ms` that the other side has got, against the phase of the pump and the number of
messages it has read. -/
def Passed (all : List WsMessage) (read : ℕ) (ms : List WsMessage) : PumpPhase → Prop
  | .reading => read ≤ all.length ∧ ms = all.take read
  | .opening m => ∃ k, read = k + 1 ∧ all[k]? = some m ∧ ms = all.take k
  | .copying kind copied rest =>
      ∃ k, read = k + 1 ∧ all[k]? = some ⟨kind, copied ++ rest⟩ ∧ ms = all.take k
  | .finishing kind copied err =>
      ∃ k rest, read = k + 1 ∧ all[k]? = some ⟨kind, copied ++ rest⟩ ∧ ms = all.take k ∧
        (err = none → rest = [])
  | .failed .. | .closing | .ended =>
      read ≤ ms.length + 1 ∧ ∃ k, ms = all.take k ∨
        ∃ kind copied rest, all[k]? = some ⟨kind, copied ++ rest⟩ ∧
          ms = all.take k ++ [⟨kind, copied⟩]

/-- The messages that a peer has got: those that the other one has sent, of which the last one may
be cut off if the pump is past its loop. -/
structure Relayed (all : List WsMessage) (read : ℕ) (ms : List WsMessage) (f : PumpPhase) :
    Prop where
  inOrder : ∃ k, ms = all.take k ∨ f.Over ∧ ∃ m part, all[k]? = some m ∧ part <+: m.data ∧
    ms = all.take k ++ [⟨m.kind, part⟩]
  missing : read ≤ ms.length + 1

/-- Before the element at `k` there are `k` elements. -/
theorem length_take_of_getElem? {α : Type} {xs : List α} {k : ℕ} {x : α}
    (h : xs[k]? = some x) : (xs.take k).length = k :=
  List.length_take_of_le (List.getElem?_eq_some_iff.mp h).1.le

/-- Messages that were passed on are relayed. -/
theorem Passed.relayed {all ms : List WsMessage} {read : ℕ} {f : PumpPhase}
    (h : Passed all read ms f) : Relayed all read ms f := by
  cases f with
  | reading =>
      obtain ⟨hle, rfl⟩ := h
      exact ⟨⟨read, Or.inl rfl⟩, by rw [List.length_take_of_le hle]; omega⟩
  | opening m =>
      obtain ⟨k, rfl, hk, rfl⟩ := h
      exact ⟨⟨k, Or.inl rfl⟩, by rw [length_take_of_getElem? hk]⟩
  | copying kind copied rest =>
      obtain ⟨k, rfl, hk, rfl⟩ := h
      exact ⟨⟨k, Or.inl rfl⟩, by rw [length_take_of_getElem? hk]⟩
  | finishing kind copied err =>
      obtain ⟨k, rest, rfl, hk, rfl, -⟩ := h
      exact ⟨⟨k, Or.inl rfl⟩, by rw [length_take_of_getElem? hk]⟩
  | failed | closing | ended =>
      obtain ⟨hread, k, htake | ⟨kind, copied, rest, hk, hcut⟩⟩ := h
      · exact ⟨⟨k, Or.inl htake⟩, hread⟩
      · exact ⟨⟨k, Or.inr ⟨trivial, _, copied, hk, ⟨rest, rfl⟩, hcut⟩⟩, hread⟩

section

variable (p : Proxy) (s x : Side)

/-- The phase of the pump that is set. -/
theorem setPhase_same (f : PumpPhase) : (p.setPhase s f).phase s = f := Function.update_self ..

/-- The other pump keeps its phase. -/
theorem setPhase_other (f : PumpPhase) (h : x ≠ s) : (p.setPhase s f).phase x = p.phase x :=
  Function.update_of_ne h ..

/-- The connection of the side that is set. -/
theorem setConn_same (c : ProxyConn) : (p.setConn s c).conn s = c := Function.update_self ..

/-- The other side keeps its connection. -/
theorem setConn_other (c : ProxyConn) (h : x ≠ s) : (p.setConn s c).conn x = p.conn x :=
  Function.update_of_ne h ..

/-- A change of one connection that keeps what the others and it have got. -/
theorem setConn_messages (c : ProxyConn) (h : c.messages = (p.conn s).messages) :
    ((p.setConn s c).conn x).messages = (p.conn x).messages := by
  by_cases hx : x = s
  · rw [hx, setConn_same, h]
  · rw [setConn_other _ _ _ _ hx]

end

/-- The answer to an error is no message. -/
theorem answer_messages (c : ProxyConn) (e : WsError) (answered : Bool) :
    (c.answer e answered).messages = c.messages := by
  cases answered <;> rfl

/-- The answer to an error does not shut the connection. -/
theorem answer_shut (c : ProxyConn) (e : WsError) (answered : Bool) :
    (c.answer e answered).shut = c.shut := by
  cases answered <;> rfl

/-- The other side is another one. -/
theorem other_ne (s : Side) : s.other ≠ s := by cases s <;> decide

/-- The other side of the other side is the side itself. -/
theorem other_other (s : Side) : s.other.other = s := by cases s <;> rfl

/-- There are two sides only. -/
theorem eq_other_of_ne {s x : Side} (h : x ≠ s) : x = s.other := by
  cases s <;> cases x <;> first | rfl | exact absurd rfl h

variable {sent : Side → List WsMessage}

/-- What the messages of every side have become. -/
def Proxy.PassedAll (sent : Side → List WsMessage) (p : Proxy) : Prop :=
  ∀ x, Passed (sent x) (p.read x) (p.conn x.other).messages (p.phase x)

/-- A step of the pump of `s` that changes no messages and no counts. -/
theorem Proxy.PassedAll.setPhase {p : Proxy} {s : Side} {f : PumpPhase} (h : p.PassedAll sent)
    (hf : Passed (sent s) (p.read s) (p.conn s.other).messages f) :
    (p.setPhase s f).PassedAll sent := by
  intro x
  by_cases hx : x = s
  · subst hx
    rw [setPhase_same]
    exact hf
  · rw [setPhase_other _ _ _ _ hx]
    exact h x

/-- A change of a connection that adds no message keeps what has been passed on. -/
theorem Proxy.PassedAll.setConn {p : Proxy} {s : Side} {c : ProxyConn} (h : p.PassedAll sent)
    (hc : c.messages = (p.conn s).messages) : (p.setConn s c).PassedAll sent := by
  intro x
  rw [setConn_messages _ _ _ _ hc]
  exact h x

/-- A pump that fails has lost the message in its hands at most. -/
theorem Passed.over {all ms : List WsMessage} {read : ℕ} {f g : PumpPhase}
    (h : Passed all read ms f) (hg : g.Over) : Passed all read ms g := by
  have hrelayed := h.relayed
  have hover : read ≤ ms.length + 1 ∧ ∃ k, ms = all.take k ∨
      ∃ kind copied rest, all[k]? = some ⟨kind, copied ++ rest⟩ ∧
        ms = all.take k ++ [⟨kind, copied⟩] := by
    refine ⟨hrelayed.missing, ?_⟩
    obtain ⟨k, htake | ⟨-, m, part, hk, ⟨rest, hrest⟩, hcut⟩⟩ := hrelayed.inOrder
    · exact ⟨k, Or.inl htake⟩
    · refine ⟨k, Or.inr ⟨m.kind, part, rest, ?_, hcut⟩⟩
      rw [hk, hrest]
  cases g with
  | failed | closing | ended => exact hover
  | reading | opening | copying | finishing => exact hg.elim

/-- After a message that failed, the pump has left its loop. -/
theorem afterMessage_over (e : WsError) : (afterMessage (some e)).Over := trivial

/-- The message that a pump completes is the next one of its side, whole if nothing has failed. -/
theorem Passed.finished {all ms : List WsMessage} {read kind : ℕ} {copied : List UInt8}
    {err : Option WsError} (h : Passed all read ms (.finishing kind copied err)) :
    Passed all read (ms ++ [⟨kind, copied⟩]) (afterMessage err) := by
  obtain ⟨k, rest, rfl, hk, rfl, hwhole⟩ := h
  have hlt : k < all.length := (List.getElem?_eq_some_iff.mp hk).1
  cases err with
  | none =>
      rw [hwhole rfl, List.append_nil] at hk
      refine ⟨hlt, ?_⟩
      rw [List.take_add_one, hk, Option.toList_some]
  | some e =>
      refine ⟨?_, k, Or.inr ⟨kind, copied, rest, hk, rfl⟩⟩
      rw [List.length_append, length_take_of_getElem? hk]
      simp

/-- A step of the proxy keeps what has been passed on, in the order in which it was read. -/
theorem passed_step {p q : Proxy} {e : ProxyEvent} (h : p.PassedAll sent)
    (hstep : ProxyStep sent p e q) : q.PassedAll sent := by
  cases hstep with
  | @next s m hphase hm =>
      have hs := h s
      rw [hphase] at hs
      intro x
      by_cases hx : x = s
      · subst hx
        simp only [setPhase_same, Function.update_self]
        exact ⟨p.read x, rfl, hm, hs.2⟩
      · simp only [setPhase_other _ _ _ _ hx, Function.update_of_ne hx]
        exact h x
  | @readFails s e answered hphase hanswer =>
      have hconn := h.setConn (answer_messages (p.conn s) e answered)
      refine hconn.setPhase ((hconn s).over ?_)
      exact afterMessage_over e
  | @deadlineFails s m hphase => exact h.setPhase ((h s).over trivial)
  | @opens s m hphase =>
      have hs := h s
      rw [hphase] at hs
      exact h.setPhase hs
  | @openFails s m e hphase => exact h.setPhase ((h s).over (afterMessage_over e))
  | @copies s kind copied rest n hphase hpos hle hbuffer =>
      have hs := h s
      rw [hphase] at hs
      obtain ⟨k, hread, hk, hms⟩ := hs
      refine h.setPhase ⟨k, hread, ?_, hms⟩
      rw [List.append_assoc, List.take_append_drop, hk]
  | @stops s kind copied rest err answered hphase hend hanswer =>
      have hmessages : (err.elim (p.conn s) fun e => (p.conn s).answer e answered).messages =
          (p.conn s).messages := by
        cases err with
        | none => rfl
        | some e => exact answer_messages (p.conn s) e answered
      have hconn := h.setConn hmessages
      have hs := hconn s
      rw [show (p.setConn s _).phase s = _ from hphase] at hs
      obtain ⟨k, hread, hk, hms⟩ := hs
      exact hconn.setPhase ⟨k, rest, hread, hk, hms, hend⟩
  | @finishes s kind copied err hphase hconn =>
      intro x
      by_cases hx : x = s
      · subst hx
        have hx := h x
        rw [hphase] at hx
        rw [setPhase_same]
        change Passed _ _ ((p.setConn x.other _).conn x.other).messages _
        rw [setConn_same]
        exact hx.finished
      · rw [setPhase_other _ _ _ _ hx]
        have hother : x.other ≠ s.other := by
          rw [eq_other_of_ne hx, other_other]
          exact (other_ne s).symm
        change Passed _ _ ((p.setConn s.other _).conn x.other).messages _
        rw [setConn_other _ _ _ _ hother]
        exact h x
  | @finishFails s kind copied err e hphase =>
      exact h.setPhase ((h s).over (afterMessage_over _))
  | @enters s code text hphase honce => exact h.setPhase ((h s).over trivial)
  | @skips s code text hphase hdone => exact h.setPhase ((h s).over trivial)
  | @controls y code text ops htodo hconn => exact h.setConn rfl
  | @controlFails y code text ops htodo => exact h
  | @shuts y ops htodo => exact h.setConn rfl
  | @leaves s hphase hdone => exact h.setPhase ((h s).over trivial)
  | @cut y hopen => exact h.setConn rfl

/-! ### What the peers are told -/

/-- The failure that was the first to enter `closeBoth`. -/
def Decided (es : List ProxyEvent) (code : ℕ) (text : String) : Prop :=
  ∃ before s after, es = before ++ .enters s :: after ∧ (∀ s', .enters s' ∉ before) ∧
    ∃ e ∈ before, e.failure? = some (s, code, text)

/-- A read from the peer has failed, and its connection has said so by itself. -/
def Answered (es : List ProxyEvent) (x : Side) (code : ℕ) (text : String) : Prop :=
  ∃ e : WsError, e.answer? = some (code, text) ∧
    (.readFails x e true ∈ es ∨ .stops x (some e) true ∈ es)

/-- Why a peer is told `code` and `text`. -/
def Told (es : List ProxyEvent) (x : Side) (code : ℕ) (text : String) : Prop :=
  Answered es x code text ∨ Decided es code text

/-- What has been decided stays so in a longer run. -/
theorem Decided.snoc {es : List ProxyEvent} {code : ℕ} {text : String} (h : Decided es code text)
    (e : ProxyEvent) : Decided (es ++ [e]) code text := by
  obtain ⟨before, s, after, rfl, hfirst, hfailure⟩ := h
  exact ⟨before, s, after ++ [e], by simp, hfirst, hfailure⟩

/-- What a side has been told, it has been told in a longer run. -/
theorem Told.snoc {es : List ProxyEvent} {x : Side} {code : ℕ} {text : String}
    (h : Told es x code text) (e : ProxyEvent) : Told (es ++ [e]) x code text := by
  rcases h with ⟨reason, hanswer, hin⟩ | hdecided
  · exact Or.inl ⟨reason, hanswer, hin.imp (List.mem_append_left _) (List.mem_append_left _)⟩
  · exact Or.inr (hdecided.snoc e)

/-- The invariant of `closeBoth`, against the history. -/
structure CloseInv (es : List ProxyEvent) (p : Proxy) : Prop where
  failure : ∀ s code text, p.phase s = .failed code text →
    ∃ e ∈ es, e.failure? = some (s, code, text)
  fresh : p.todo = none → ∀ s, .enters s ∉ es
  decided : ∀ ops, p.todo = some ops → ∃ code text, Decided es code text ∧
    ops <:+ closeOps code text
  told : ∀ x code text, (p.conn x).close = some (code, text) → Told es x code text
  entered : ∀ s, p.phase s = .closing → p.todo ≠ none
  returned : ∀ s, p.phase s = .ended → p.todo = some []
  shut : ∀ ops, p.todo = some ops → ∀ x, .shut x ∈ ops ∨ (p.conn x).shut = true

/-- The invariant of the close messages holds at the start. -/
theorem closeInv_start : CloseInv [] Proxy.start where
  failure := fun _ _ _ h => nomatch h
  fresh := fun _ _ => List.not_mem_nil
  decided := fun _ h => nomatch h
  told := fun _ _ _ h => nomatch h
  entered := fun _ h => nomatch h
  returned := fun _ h => nomatch h
  shut := fun _ h => nomatch h

/-- A step that is no `enters` may stand at the end of the history. -/
theorem CloseInv.snoc {es : List ProxyEvent} {p : Proxy} {e : ProxyEvent} (h : CloseInv es p)
    (he : ∀ s, e ≠ .enters s) : CloseInv (es ++ [e]) p where
  failure := by
    intro s code text hphase
    obtain ⟨e', he', hfailure⟩ := h.failure s code text hphase
    exact ⟨e', List.mem_append_left _ he', hfailure⟩
  fresh := by
    intro htodo s hin
    rcases List.mem_append.mp hin with hin | hin
    · exact h.fresh htodo s hin
    · exact he s (List.mem_singleton.mp hin).symm
  decided := by
    intro ops hops
    obtain ⟨code, text, hdecided, hsuffix⟩ := h.decided ops hops
    exact ⟨code, text, hdecided.snoc e, hsuffix⟩
  told := fun x code text hclose => (h.told x code text hclose).snoc e
  entered := h.entered
  returned := h.returned
  shut := h.shut

/-- The pump of `s` goes on to `f` by the step `e`, and nothing is written or closed. -/
theorem CloseInv.setPhase {es : List ProxyEvent} {p : Proxy} {s : Side} {f : PumpPhase}
    {e : ProxyEvent} (h : CloseInv es p) (he : ∀ s', e ≠ .enters s')
    (hfailed : ∀ code text, f = .failed code text → e.failure? = some (s, code, text))
    (hclosing : f ≠ .closing) (hended : f = .ended → p.todo = some []) :
    CloseInv (es ++ [e]) (p.setPhase s f) where
  failure := by
    intro s' code text hphase
    by_cases hs : s' = s
    · subst hs
      rw [setPhase_same] at hphase
      exact ⟨e, List.mem_append_right _ (List.mem_singleton_self e), hfailed code text hphase⟩
    · rw [setPhase_other _ _ _ _ hs] at hphase
      obtain ⟨e', he', hfailure⟩ := h.failure s' code text hphase
      exact ⟨e', List.mem_append_left _ he', hfailure⟩
  fresh := (h.snoc he).fresh
  decided := (h.snoc he).decided
  told := (h.snoc he).told
  entered := by
    intro s' hphase
    by_cases hs : s' = s
    · subst hs
      rw [setPhase_same] at hphase
      exact absurd hphase hclosing
    · rw [setPhase_other _ _ _ _ hs] at hphase
      exact h.entered s' hphase
  returned := by
    intro s' hphase
    by_cases hs : s' = s
    · subst hs
      rw [setPhase_same] at hphase
      exact hended hphase
    · rw [setPhase_other _ _ _ _ hs] at hphase
      exact h.returned s' hphase
  shut := h.shut

/-- What is written to a connection does not matter, as long as close frames have a reason. -/
theorem CloseInv.setConn {es : List ProxyEvent} {p : Proxy} {y : Side} {c : ProxyConn}
    (h : CloseInv es p) (hshut : (p.conn y).shut = true → c.shut = true)
    (htold : ∀ code text, c.close = some (code, text) → Told es y code text) :
    CloseInv es (p.setConn y c) where
  failure := h.failure
  fresh := h.fresh
  decided := h.decided
  told := by
    intro x code text hclose
    by_cases hx : x = y
    · subst hx
      rw [setConn_same] at hclose
      exact htold code text hclose
    · rw [setConn_other _ _ _ _ hx] at hclose
      exact h.told x code text hclose
  entered := h.entered
  returned := h.returned
  shut := by
    intro ops hops x
    refine (h.shut ops hops x).imp_right fun hx => ?_
    by_cases hy : x = y
    · subst hy
      rw [setConn_same]
      exact hshut hx
    · rw [setConn_other _ _ _ _ hy]
      exact hx

/-- `closeBoth` goes on to its next operation. -/
theorem CloseInv.pop {es : List ProxyEvent} {p : Proxy} {op : CloseOp} {ops : List CloseOp}
    (e : ProxyEvent) (h : CloseInv es p) (htodo : p.todo = some (op :: ops))
    (hop : ∀ x, op = .shut x → (p.conn x).shut = true) :
    CloseInv (es ++ [e]) { p with todo := some ops } where
  failure := by
    intro s code text hphase
    obtain ⟨e', he', hfailure⟩ := h.failure s code text hphase
    exact ⟨e', List.mem_append_left _ he', hfailure⟩
  fresh := fun hnone => nomatch hnone
  decided := by
    intro ops' hops'
    obtain rfl := Option.some.inj hops'
    obtain ⟨code, text, hdecided, hsuffix⟩ := h.decided _ htodo
    exact ⟨code, text, hdecided.snoc e, (List.suffix_cons op ops).trans hsuffix⟩
  told := fun x code text hclose => (h.told x code text hclose).snoc e
  entered := fun _ _ hnone => nomatch hnone
  returned := by
    intro s hphase
    have hdone := h.returned s hphase
    rw [htodo] at hdone
    cases hdone
  shut := by
    intro ops' hops' x
    obtain rfl := Option.some.inj hops'
    rcases h.shut _ htodo x with hin | hshut
    · rcases List.mem_cons.mp hin with hop' | hin
      · exact Or.inr (hop x hop'.symm)
      · exact Or.inl hin
    · exact Or.inr hshut

/-- The first pump to fail enters `closeBoth`. -/
theorem CloseInv.enters {es : List ProxyEvent} {p : Proxy} {s : Side} {code : ℕ} {text : String}
    (h : CloseInv es p) (hphase : p.phase s = .failed code text) (honce : p.todo = none) :
    CloseInv (es ++ [.enters s])
      { p.setPhase s .closing with todo := some (closeOps code text) } where
  failure := by
    intro s' code' text' hphase'
    by_cases hs : s' = s
    · subst hs
      rw [setPhase_same] at hphase'
      cases hphase'
    · rw [setPhase_other _ _ _ _ hs] at hphase'
      obtain ⟨e, he, hfailure⟩ := h.failure s' code' text' hphase'
      exact ⟨e, List.mem_append_left _ he, hfailure⟩
  fresh := fun hnone => nomatch hnone
  decided := by
    intro ops hops
    obtain rfl := Option.some.inj hops
    exact ⟨code, text, ⟨es, s, [], rfl, h.fresh honce, h.failure s code text hphase⟩,
      List.suffix_rfl⟩
  told := fun x code' text' hclose => (h.told x code' text' hclose).snoc _
  entered := fun _ _ hnone => nomatch hnone
  returned := by
    intro s' hphase'
    by_cases hs : s' = s
    · subst hs
      rw [setPhase_same] at hphase'
      cases hphase'
    · rw [setPhase_other _ _ _ _ hs] at hphase'
      have hdone := h.returned s' hphase'
      rw [honce] at hdone
      cases hdone
  shut := by
    intro ops hops x
    obtain rfl := Option.some.inj hops
    cases x <;> simp [closeOps]

/-- What a connection says by itself has a read that failed as its reason. -/
theorem told_answer {es : List ProxyEvent} {c : ProxyConn} {s : Side} {e : WsError}
    {answered : Bool} (h : ∀ code text, c.close = some (code, text) → Told es s code text)
    (hin : answered = true → .readFails s e true ∈ es ∨ .stops s (some e) true ∈ es) :
    ∀ code text, (c.answer e answered).close = some (code, text) → Told es s code text := by
  intro code text hclose
  cases answered with
  | true => exact Or.inl ⟨e, hclose, hin rfl⟩
  | false => exact h code text hclose

/-- The control messages of the close have the code and the text that were decided. -/
theorem control_mem {x : Side} {code code' : ℕ} {text text' : String}
    (h : .control x code text ∈ closeOps code' text') : code = code' ∧ text = text' := by
  simp only [closeOps, List.mem_cons, CloseOp.control.injEq, reduceCtorEq, List.not_mem_nil,
    or_false] at h
  rcases h with ⟨-, h⟩ | ⟨-, h⟩ <;> exact h

/-- A failure of a message is the failure that ends its pump. -/
theorem failure_afterMessage {err : Option WsError} {s : Side} {code : ℕ} {text : String}
    (h : afterMessage err = .failed code text) :
    (ProxyEvent.finishes s err).failure? = some (s, code, text) := by
  cases err with
  | none => cases h
  | some e =>
      obtain ⟨rfl, rfl⟩ := PumpPhase.failed.inj h
      rfl

/-- A message does not make a pump close or end. -/
theorem afterMessage_ne (err : Option WsError) :
    afterMessage err ≠ .closing ∧ afterMessage err ≠ .ended := by
  cases err <;> exact ⟨nofun, nofun⟩

/-- A step keeps the invariant of the close messages. -/
theorem closeInv_step {es : List ProxyEvent} {p q : Proxy} {e : ProxyEvent} (h : CloseInv es p)
    (hstep : ProxyStep sent p e q) : CloseInv (es ++ [e]) q := by
  cases hstep with
  | @next s m hphase hm =>
      have hq := h.setPhase (s := s) (f := .opening m) (e := .next s) nofun nofun nofun nofun
      exact ⟨hq.failure, hq.fresh, hq.decided, hq.told, hq.entered, hq.returned, hq.shut⟩
  | @readFails s e answered hphase hanswer =>
      have hq := h.setPhase (s := s) (f := afterMessage (some e)) (e := .readFails s e answered)
        nofun (fun _ _ => failure_afterMessage) (afterMessage_ne _).1
        fun hended => absurd hended (afterMessage_ne _).2
      refine hq.setConn (fun hshut => (answer_shut ..).trans hshut) (told_answer (hq.told s) ?_)
      rintro rfl
      exact Or.inl (List.mem_append_right _ (List.mem_singleton_self _))
  | @deadlineFails s m hphase =>
      refine h.setPhase nofun (fun code text hf => ?_) nofun nofun
      obtain ⟨rfl, rfl⟩ := PumpPhase.failed.inj hf
      rfl
  | @opens s m hphase => exact h.setPhase nofun nofun nofun nofun
  | @openFails s m e hphase =>
      refine h.setPhase nofun (fun code text hf => ?_) nofun nofun
      have hfailure : (ProxyEvent.finishes s (some e)).failure? = some (s, code, text) :=
        failure_afterMessage hf
      exact hfailure
  | @copies s kind copied rest n hphase hpos hle hbuffer =>
      exact h.setPhase nofun nofun nofun nofun
  | @stops s kind copied rest err answered hphase hend hanswer =>
      have hq := h.setPhase (s := s) (f := .finishing kind copied err)
        (e := .stops s err answered) nofun nofun nofun nofun
      cases err with
      | none => exact hq.setConn id fun code text => hq.told s code text
      | some e =>
          refine hq.setConn (fun hshut => (answer_shut ..).trans hshut) (told_answer (hq.told s) ?_)
          rintro rfl
          exact Or.inr (List.mem_append_right _ (List.mem_singleton_self _))
  | @finishes s kind copied err hphase hconn =>
      have hconn' : CloseInv es (p.deliver s.other ⟨kind, copied⟩) :=
        h.setConn id fun code text => h.told s.other code text
      exact hconn'.setPhase nofun (fun _ _ => failure_afterMessage) (afterMessage_ne err).1
        fun hended => absurd hended (afterMessage_ne err).2
  | @finishFails s kind copied err e hphase =>
      exact h.setPhase nofun (fun _ _ => failure_afterMessage) (afterMessage_ne _).1
        fun hended => absurd hended (afterMessage_ne _).2
  | @enters s code text hphase honce => exact h.enters hphase honce
  | @skips s code text hphase hdone => exact h.setPhase nofun nofun nofun fun _ => hdone
  | @controls x code text ops htodo hconn =>
      refine (h.setConn (c := { p.conn x with close := some (code, text) }) id ?_).pop _ htodo nofun
      rintro code' text' heq
      obtain ⟨rfl, rfl⟩ := Prod.mk.inj (Option.some.inj heq)
      obtain ⟨code', text', hdecided, hsuffix⟩ := h.decided _ htodo
      obtain ⟨rfl, rfl⟩ := control_mem (hsuffix.subset (List.mem_cons_self ..))
      exact Or.inr hdecided
  | @controlFails x code text ops htodo => exact h.pop _ htodo nofun
  | @shuts x ops htodo =>
      have hshut := h.setConn (c := { p.conn x with shut := true }) (fun _ => rfl)
        fun code text => h.told x code text
      refine hshut.pop _ htodo fun y hy => ?_
      obtain rfl := CloseOp.shut.inj hy
      exact congrArg ProxyConn.shut (setConn_same p x _)
  | @leaves s hphase hdone => exact h.setPhase nofun nofun nofun fun _ => hdone
  | @cut x hopen =>
      have hshut := h.setConn (c := { p.conn x with shut := true }) (fun _ => rfl)
        fun code text => h.told x code text
      exact hshut.snoc nofun

/-- At the start nothing has been read and nothing passed on. -/
theorem passedAll_start : Proxy.start.PassedAll sent := by
  intro x
  have hstart : Passed (sent x) 0 [] .reading := ⟨Nat.zero_le _, rfl⟩
  exact hstart

/-- **What a peer of a proxy receives.** Its messages are those that the other peer has sent, in
order and of the same kinds; only the last one can be cut off, and then the pump is past its loop.
At most one message that was read is missing. The only close frame it gets carries the code of the
failure that was the first to enter `closeBoth`, or answers what could not be read from it. -/
theorem run_relayed {es : List ProxyEvent} {t : Proxy}
    (hrun : Run (ProxyStep sent) Proxy.start es t) (s : Side) :
    Relayed (sent s) (t.read s) (t.conn s.other).messages (t.phase s) ∧
      ∀ code text, (t.conn s.other).close = some (code, text) → Told es s.other code text := by
  have hpassed : t.PassedAll sent :=
    hrun.state_invariant (Proxy.PassedAll sent) passedAll_start passed_step
  have hclose := hrun.invariant CloseInv closeInv_start closeInv_step
  exact ⟨(hpassed s).relayed, fun code text => hclose.told s.other code text⟩

/-- One message, of two bytes. -/
def sampleSent : Side → List WsMessage
  | .a => [⟨1, [104, 105]⟩]
  | .b => []

/-- A message that breaks off after its first byte. -/
theorem run_relayed_cut : ∃ (es : List ProxyEvent) (t : Proxy),
    (t.conn .b).messages = [⟨1, [104]⟩] ∧
    (t.conn .b).close = some (1009, "message exceeds stream limit") ∧
    Relayed (sampleSent .a) (t.read .a) (t.conn .b).messages (t.phase .a) ∧
    Told es .b 1009 "message exceeds stream limit" := by
  have hnext : ProxyStep sampleSent .start (.next .a) _ := .next rfl rfl
  have hopened := (Run.single hnext).snoc (.opens (s := .a) rfl)
  have hcopied := hopened.snoc
    (@ProxyStep.copies sampleSent _ .a 1 [] [104, 105] 1 rfl (by decide) (by decide) (by decide))
  have hstopped := hcopied.snoc
    (@ProxyStep.stops sampleSent _ .a 1 [104] [105] (some .readLimit) false rfl nofun nofun)
  have hfinished := hstopped.snoc
    (@ProxyStep.finishes sampleSent _ .a 1 [104] (some .readLimit) rfl ⟨rfl, rfl⟩)
  have hclosing := (hfinished.snoc (.enters (s := .a) rfl rfl)).snoc (.controlFails (x := .a) rfl)
  have hrun := hclosing.snoc (.controls (x := .b) rfl ⟨rfl, rfl⟩)
  exact ⟨_, _, rfl, rfl, (run_relayed hrun .a).1, (run_relayed hrun .a).2 _ _ rfl⟩

/-! ### The end of a proxy -/

/-- The steps that wait for a peer or for the surroundings: reads from a connection that is not
closed, and a connection that is cut. A write comes back after its deadline. -/
def ProxyEvent.Waits (p : Proxy) : ProxyEvent → Prop
  | .next s | .readFails s _ _ | .copies s _ | .stops s _ _ => (p.conn s).shut = false
  | .cut _ => True
  | _ => False

/-- `proxyWebSockets` has returned, and left nothing behind. -/
structure Proxy.Finished (p : Proxy) : Prop where
  done : p.todo = some []
  shut : ∀ x, (p.conn x).shut = true
  ended : ∀ s, p.phase s = .ended

/-- The steps that a pump can still do with the message in its hands. -/
def PumpPhase.rank : PumpPhase → ℕ
  | .reading => 3
  | .opening m => m.data.length + 6
  | .copying _ _ rest => rest.length + 5
  | .finishing .. => 4
  | .failed .. => 2
  | .closing => 1
  | .ended => 0

/-- The steps for the messages. -/
def messageCost (ms : List WsMessage) : ℕ := (ms.map fun m => m.data.length + 4).sum

def pumpRank (sent : Side → List WsMessage) (p : Proxy) (s : Side) : ℕ :=
  (p.phase s).rank + messageCost ((sent s).drop (p.read s))

/-- A connection can be cut once. -/
def cutRank (p : Proxy) (x : Side) : ℕ := if (p.conn x).shut then 0 else 1

def Proxy.rank (sent : Side → List WsMessage) (p : Proxy) : ℕ :=
  pumpRank sent p .a + pumpRank sent p .b + cutRank p .a + cutRank p .b +
    p.todo.elim 4 List.length

/-- Reading a message takes its cost off those that are left. -/
theorem messageCost_drop {ms : List WsMessage} {k : ℕ} {m : WsMessage} (h : ms[k]? = some m) :
    messageCost (ms.drop k) = m.data.length + 4 + messageCost (ms.drop (k + 1)) := by
  obtain ⟨hlt, rfl⟩ := List.getElem?_eq_some_iff.mp h
  rw [List.drop_eq_getElem_cons hlt]
  rfl

/-- The rank of a pump depends on its own phase and reads only. -/
theorem pumpRank_other {p q : Proxy} {s x : Side} (hx : x ≠ s)
    (hphase : ∀ x, x ≠ s → q.phase x = p.phase x) (hread : ∀ x, x ≠ s → q.read x = p.read x) :
    pumpRank sent q x = pumpRank sent p x := by
  rw [pumpRank, pumpRank, hphase x hx, hread x hx]

/-- The rank of a connection does not grow while what is shut stays shut. -/
theorem cutRank_le {p q : Proxy} {x : Side}
    (h : (p.conn x).shut = true → (q.conn x).shut = true) : cutRank q x ≤ cutRank p x := by
  rw [cutRank, cutRank]
  cases hp : (p.conn x).shut with
  | true => rw [h hp]
  | false => cases (q.conn x).shut <;> decide

/-- What one pump gains, the proxy gains. -/
theorem rank_lt_of_pumpRank {p q : Proxy} {s : Side} (h : pumpRank sent q s < pumpRank sent p s)
    (hphase : ∀ x, x ≠ s → q.phase x = p.phase x) (hread : ∀ x, x ≠ s → q.read x = p.read x)
    (hconn : q.conn = p.conn) (htodo : q.todo.elim 4 List.length ≤ p.todo.elim 4 List.length) :
    q.rank sent < p.rank sent := by
  have hother := @pumpRank_other sent p q s s.other (other_ne s) hphase hread
  have hcut : ∀ x, cutRank q x = cutRank p x := fun x => by rw [cutRank, cutRank, hconn]
  cases s with
  | a =>
      rw [Side.other] at hother
      rw [Proxy.rank, Proxy.rank, hcut, hcut]
      omega
  | b =>
      rw [Side.other] at hother
      rw [Proxy.rank, Proxy.rank, hcut, hcut]
      omega

/-- A pump that goes to a later phase lowers the rank. -/
theorem rank_setPhase {p : Proxy} {s : Side} {f : PumpPhase} (h : f.rank < (p.phase s).rank) :
    (p.setPhase s f).rank sent < p.rank sent := by
  refine rank_lt_of_pumpRank (s := s) ?_ (fun x hx => setPhase_other _ _ _ _ hx) (fun _ _ => rfl)
    rfl (Nat.le_refl _)
  rw [pumpRank, pumpRank, setPhase_same]
  exact Nat.add_lt_add_right h _

/-- A change of a connection that does not open it again does not raise the rank. -/
theorem rank_setConn {p : Proxy} {y : Side} {c : ProxyConn}
    (h : (p.conn y).shut = true → c.shut = true) : (p.setConn y c).rank sent ≤ p.rank sent := by
  have hcut : ∀ x, cutRank (p.setConn y c) x ≤ cutRank p x := by
    intro x
    refine cutRank_le fun hx => ?_
    by_cases hy : x = y
    · subst hy
      rw [setConn_same]
      exact h hx
    · rwa [setConn_other _ _ _ _ hy]
  have ha := hcut .a
  have hb := hcut .b
  change pumpRank sent p .a + pumpRank sent p .b + _ + _ + p.todo.elim 4 List.length ≤ _
  rw [Proxy.rank]
  omega

/-- The rank after a message is at most three. -/
theorem rank_afterMessage (err : Option WsError) : (afterMessage err).rank ≤ 3 := by
  cases err with
  | none => exact Nat.le_refl 3
  | some e => exact Nat.le_succ 2

/-- Every operation of the close lowers the rank. -/
theorem rank_pop {p : Proxy} {op : CloseOp} {ops : List CloseOp}
    (htodo : p.todo = some (op :: ops)) :
    ({ p with todo := some ops } : Proxy).rank sent < p.rank sent := by
  change _ + _ + _ + _ + ops.length < _
  rw [Proxy.rank, htodo, Option.elim_some, List.length_cons]
  exact Nat.lt_succ_self _

/-- So does shutting an open connection. -/
theorem rank_cut {p : Proxy} {x : Side} (hopen : (p.conn x).shut = false) :
    (p.setConn x { p.conn x with shut := true }).rank sent < p.rank sent := by
  have hx : cutRank (p.setConn x { p.conn x with shut := true }) x = 0 := by
    rw [cutRank, setConn_same]
    rfl
  have hp : cutRank p x = 1 := by rw [cutRank, hopen]; rfl
  have hother : cutRank (p.setConn x { p.conn x with shut := true }) x.other =
      cutRank p x.other := by rw [cutRank, cutRank, setConn_other _ _ _ _ (other_ne x)]
  cases x with
  | a =>
      rw [Side.other] at hother
      change pumpRank sent p .a + pumpRank sent p .b + _ + _ + p.todo.elim 4 List.length < _
      rw [Proxy.rank]
      omega
  | b =>
      rw [Side.other] at hother
      change pumpRank sent p .a + pumpRank sent p .b + _ + _ + p.todo.elim 4 List.length < _
      rw [Proxy.rank]
      omega

/-- **Every step uses up something**: a byte, a message, or a step towards the end. -/
theorem rank_step {p q : Proxy} {e : ProxyEvent} (h : ProxyStep sent p e q) :
    q.rank sent < p.rank sent := by
  cases h with
  | @next s m hphase hm =>
      refine rank_lt_of_pumpRank (s := s) ?_ (fun x hx => setPhase_other _ _ _ _ hx)
        (fun x hx => Function.update_of_ne hx ..) rfl (Nat.le_refl _)
      simp only [pumpRank, setPhase_same, Function.update_self, hphase, messageCost_drop hm,
        PumpPhase.rank]
      omega
  | @readFails s e answered hphase hanswer =>
      refine Nat.lt_of_lt_of_le (rank_setPhase ?_)
        (rank_setConn fun hshut => (answer_shut ..).trans hshut)
      change 2 < (p.phase s).rank
      rw [hphase]
      decide
  | @deadlineFails s m hphase =>
      refine rank_setPhase ?_
      rw [hphase]
      simp only [PumpPhase.rank]
      omega
  | @opens s m hphase =>
      refine rank_setPhase ?_
      rw [hphase]
      exact Nat.lt_succ_self _
  | @openFails s m e hphase =>
      refine rank_setPhase ?_
      rw [hphase]
      simp only [PumpPhase.rank, afterMessage]
      omega
  | @copies s kind copied rest n hphase hpos hle hbuffer =>
      refine rank_setPhase ?_
      rw [hphase]
      simp only [PumpPhase.rank, List.length_drop]
      omega
  | @stops s kind copied rest err answered hphase hend hanswer =>
      have hshut : (p.conn s).shut = true →
          (err.elim (p.conn s) fun e => (p.conn s).answer e answered).shut = true := by
        cases err with
        | none => exact id
        | some e => exact fun hshut => (answer_shut ..).trans hshut
      refine Nat.lt_of_lt_of_le (rank_setPhase ?_) (rank_setConn hshut)
      change 4 < (p.phase s).rank
      rw [hphase]
      simp only [PumpPhase.rank]
      omega
  | @finishes s kind copied err hphase hconn =>
      refine Nat.lt_of_lt_of_le (rank_setPhase ?_) (rank_setConn id)
      change _ < (p.phase s).rank
      rw [hphase]
      exact Nat.lt_succ_of_le (rank_afterMessage err)
  | @finishFails s kind copied err e hphase =>
      refine rank_setPhase ?_
      rw [hphase]
      exact Nat.lt_succ_of_le (rank_afterMessage _)
  | @enters s code text hphase honce =>
      refine rank_lt_of_pumpRank (s := s) ?_ (fun x hx => setPhase_other _ _ _ _ hx)
        (fun _ _ => rfl) rfl ?_
      · rw [pumpRank, pumpRank, hphase]
        change (PumpPhase.rank (Function.update p.phase s .closing s)) + _ < 2 + _
        rw [Function.update_self]
        exact Nat.add_lt_add_right (by decide) _
      · rw [honce]
        exact Nat.le_refl 4
  | @skips s code text hphase hdone =>
      refine rank_setPhase ?_
      rw [hphase]
      exact Nat.succ_pos 1
  | @controls x code text ops htodo hconn =>
      have hconn : (p.setConn x { p.conn x with close := some (code, text) }).rank sent ≤
          p.rank sent := rank_setConn id
      exact Nat.lt_of_lt_of_le (rank_pop htodo) hconn
  | @controlFails x code text ops htodo => exact rank_pop htodo
  | @shuts x ops htodo =>
      have hconn : (p.setConn x { p.conn x with shut := true }).rank sent ≤ p.rank sent :=
        rank_setConn fun _ => rfl
      exact Nat.lt_of_lt_of_le (rank_pop htodo) hconn
  | @leaves s hphase hdone =>
      refine rank_setPhase ?_
      rw [hphase]
      decide
  | @cut x hopen => exact rank_cut hopen

/-- The length of a run and the rank at its end are at most the rank at its start. -/
theorem rank_run {p t : Proxy} {es : List ProxyEvent} (h : Run (ProxyStep sent) p es t) :
    es.length + t.rank sent ≤ p.rank sent := by
  induction h with
  | nil => exact Nat.le_of_eq (Nat.zero_add _)
  | @snoc es t u e _ hstep ih =>
      have hlt := rank_step hstep
      rw [List.length_append, List.length_singleton]
      omega

/-- `closeBoth` never waits for a peer. -/
theorem closeOp_step {p : Proxy} {op : CloseOp} {ops : List CloseOp}
    (htodo : p.todo = some (op :: ops)) : ∃ e q, ProxyStep sent p e q ∧ ¬ e.Waits p := by
  cases op with
  | control x code text => exact ⟨_, _, .controlFails htodo, id⟩
  | shut x => exact ⟨_, _, .shuts htodo, id⟩

/-- Where nothing is left to do but to wait, and a pump is past its loop, `closeBoth` is done. -/
theorem done_of_over {es : List ProxyEvent} {p : Proxy} {s : Side} (h : CloseInv es p)
    (hover : (p.phase s).Over) (hwaits : ∀ e q, ProxyStep sent p e q → e.Waits p) :
    p.todo = some [] := by
  rcases htodo : p.todo with _ | ops
  · cases hphase : p.phase s with
    | failed code text => exact (hwaits _ _ (.enters hphase htodo)).elim
    | closing => exact absurd htodo (h.entered s hphase)
    | ended =>
        have hdone := h.returned s hphase
        rw [htodo] at hdone
        cases hdone
    | reading | opening | copying | finishing =>
        rw [hphase] at hover
        exact hover.elim
  · cases ops with
    | nil => rfl
    | cons op ops =>
        obtain ⟨e, q, hstep, hnot⟩ := @closeOp_step sent p op ops htodo
        exact absurd (hwaits e q hstep) hnot

/-- A pump whose connections are closed does not rest before it has returned. -/
theorem ended_of_done {es : List ProxyEvent} {p : Proxy} (h : CloseInv es p)
    (hdone : p.todo = some []) (hwaits : ∀ e q, ProxyStep sent p e q → e.Waits p) (s : Side) :
    p.phase s = .ended := by
  have hshut : (p.conn s).shut = true := (h.shut [] hdone s).resolve_left List.not_mem_nil
  cases hphase : p.phase s with
  | ended => rfl
  | reading =>
      have hfalse : (p.conn s).shut = false :=
        hwaits (.readFails s .eof false) _ (.readFails hphase nofun)
      rw [hshut] at hfalse
      cases hfalse
  | opening m => exact (hwaits _ _ (.deadlineFails hphase)).elim
  | copying kind copied rest =>
      have hfalse : (p.conn s).shut = false :=
        hwaits (.stops s (some .eof) false) _ (.stops hphase nofun nofun)
      rw [hshut] at hfalse
      cases hfalse
  | finishing kind copied err =>
      exact (hwaits _ _ (.finishFails (e := .eof) hphase)).elim
  | failed code text => exact (hwaits _ _ (.skips hphase hdone)).elim
  | closing => exact (hwaits _ _ (.leaves hphase hdone)).elim

/-- **A proxy ends.** It makes no more steps than the messages of its peers have bytes, up to a few
for each message and a few at the end; and once a pump is past its loop, the proxy cannot come to
rest, not even to wait for a peer, before both connections are closed, both pumps have returned and
`proxyWebSockets` has. -/
theorem run_ends {es : List ProxyEvent} {t : Proxy}
    (hrun : Run (ProxyStep sent) Proxy.start es t) :
    es.length ≤ messageCost (sent .a) + messageCost (sent .b) + 12 ∧
      ((∃ s, (t.phase s).Over) → (∀ e q, ProxyStep sent t e q → e.Waits t) → t.Finished) := by
  have hrank := rank_run hrun
  have hstart : Proxy.start.rank sent = messageCost (sent .a) + messageCost (sent .b) + 12 := by
    simp only [Proxy.rank, pumpRank, cutRank, Proxy.start, PumpPhase.rank, List.drop_zero,
      Option.elim_none, Bool.false_eq_true, if_false]
    omega
  have hclose := hrun.invariant CloseInv closeInv_start closeInv_step
  refine ⟨by omega, ?_⟩
  rintro ⟨s, hover⟩ hwaits
  have hdone := done_of_over hclose hover hwaits
  exact ⟨hdone, fun x => (hclose.shut [] hdone x).resolve_left List.not_mem_nil,
    ended_of_done hclose hdone hwaits⟩

/-- Nothing happens after the end. -/
theorem Proxy.Finished.no_step {p q : Proxy} {e : ProxyEvent} (h : p.Finished) :
    ¬ ProxyStep sent p e q := by
  intro hstep
  have hphase := h.ended
  have htodo := h.done
  have hshut := h.shut
  cases hstep <;> simp_all

/-- The first peer goes away before a message is read. -/
theorem run_ends_left : ∃ (es : List ProxyEvent) (t : Proxy), es.length ≤ 18 ∧ t.Finished := by
  have hfails : ProxyStep sampleSent .start (.readFails .a .eof false) _ := .readFails rfl nofun
  have hentered := (Run.single hfails).snoc (.enters (s := .a) rfl rfl)
  have htold := (hentered.snoc (.controlFails (x := .a) rfl)).snoc
    (.controls (x := .b) rfl ⟨rfl, rfl⟩)
  have hshut := (htold.snoc (.shuts (x := .a) rfl)).snoc (.shuts (x := .b) rfl)
  have hleft := hshut.snoc (.leaves (s := .a) rfl rfl)
  have hother := hleft.snoc
    (@ProxyStep.readFails sampleSent _ .b (.close 1001 "") false rfl nofun)
  have hrun := hother.snoc (.skips (s := .b) rfl rfl)
  refine ⟨_, _, (run_ends hrun).1, (run_ends hrun).2 ⟨.a, trivial⟩ fun e q hstep => ?_⟩
  refine absurd hstep (Proxy.Finished.no_step ⟨rfl, fun x => ?_, fun x => ?_⟩)
  · cases x <;> rfl
  · cases x <;> rfl

/-! ### A log behind a proxy -/

/-- `Write` sends the beginning of its bytes, whatever the connection takes. -/
theorem writeChunks_prefix (conn : WsConn) (sent : List (List UInt8)) (written : ℕ)
    (p : List UInt8) : ∃ part, part <+: p ∧
      (writeChunks conn sent written p).sent.flatten = sent.flatten ++ part ∧
      ((writeChunks conn sent written p).err = none → part = p) := by
  induction hn : p.length using Nat.strong_induction_on generalizing sent written p with
  | h n ih =>
  rw [writeChunks]
  by_cases hempty : p = []
  · rw [if_pos hempty]
    exact ⟨[], List.nil_prefix, (List.append_nil _).symm, fun _ => hempty.symm⟩
  rw [if_neg hempty]
  by_cases hzero : messageSize p = 0
  · rw [if_pos hzero]
    exact ⟨[], List.nil_prefix, (List.append_nil _).symm, fun herr => by cases herr⟩
  rw [if_neg hzero]
  cases hconn : conn sent (p.take (messageSize p)) with
  | some err => exact ⟨[], List.nil_prefix, (List.append_nil _).symm, fun herr => by cases herr⟩
  | none =>
      have hlt : (p.drop (messageSize p)).length < n := by
        have hpos := List.length_pos_of_ne_nil hempty
        rw [List.length_drop]
        omega
      obtain ⟨part, hpart, hsent, hall⟩ := ih _ hlt (sent ++ [p.take (messageSize p)])
        (written + messageSize p) (p.drop (messageSize p)) rfl
      refine ⟨p.take (messageSize p) ++ part, ?_, ?_, fun herr => ?_⟩
      · have hjoin := (List.prefix_append_right_inj (p.take (messageSize p))).mpr hpart
        rwa [List.take_append_drop] at hjoin
      · rw [hsent, List.flatten_append, List.flatten_singleton, List.append_assoc]
      · rw [hall herr, List.take_append_drop]

/-- A log that is written to a connection that may fail arrives up to some byte. -/
theorem copyLog_isPrefix (conn : WsConn) (pieces : List (List UInt8)) :
    (copyLog (some conn) [] pieces).2.flatten <+: pieces.flatten := by
  suffices h : ∀ sent, ∃ part, part <+: pieces.flatten ∧
      (copyLog (some conn) sent pieces).2.flatten = sent.flatten ++ part by
    obtain ⟨part, hpart, hsent⟩ := h []
    rwa [hsent]
  induction pieces with
  | nil => exact fun sent => ⟨[], List.nil_prefix, (List.append_nil _).symm⟩
  | cons p pieces ih =>
      intro sent
      have hwrite : ∃ part, part <+: p ∧
          (writeLog (some conn) sent p).sent.flatten = sent.flatten ++ part ∧
          ((writeLog (some conn) sent p).err = none → part = p) := by
        rw [writeLog]
        split
        · rename_i hempty
          exact ⟨[], List.nil_prefix, (List.append_nil _).symm, fun _ => hempty.symm⟩
        · exact writeChunks_prefix conn sent 0 p
      obtain ⟨part, hpart, hsent, hall⟩ := hwrite
      simp only [copyLog]
      cases herr : (writeLog (some conn) sent p).err with
      | some err =>
          rw [Option.isSome_some, if_pos rfl, List.flatten_cons]
          exact ⟨part, hpart.trans (List.prefix_append p _), hsent⟩
      | none =>
          obtain rfl := hall herr
          obtain ⟨rest, hrest, hjoin⟩ := ih (writeLog (some conn) sent part).sent
          rw [Option.isSome_none, if_neg Bool.false_ne_true, List.flatten_cons]
          exact ⟨part ++ rest, (List.prefix_append_right_inj part).mpr hrest,
            by rw [hjoin, hsent, List.append_assoc]⟩

/-- The bytes that a peer has got are a prefix of those that the other one has sent. -/
theorem Relayed.bytes {all ms : List WsMessage} {read : ℕ} {f : PumpPhase}
    (h : Relayed all read ms f) :
    (ms.map WsMessage.data).flatten <+: (all.map WsMessage.data).flatten := by
  obtain ⟨k, rfl | ⟨-, m, part, hk, hpart, rfl⟩⟩ := h.inOrder
  · refine ⟨((all.drop k).map WsMessage.data).flatten, ?_⟩
    rw [← List.flatten_append, ← List.map_append, List.take_append_drop]
  · obtain ⟨hlt, rfl⟩ := List.getElem?_eq_some_iff.mp hk
    obtain ⟨rest, hrest⟩ := hpart
    have hall : all.take k ++ all[k] :: all.drop (k + 1) = all := by
      rw [← List.drop_eq_getElem_cons hlt, List.take_append_drop]
    refine ⟨rest ++ ((all.drop (k + 1)).map WsMessage.data).flatten, ?_⟩
    calc ((all.take k ++ [WsMessage.mk all[k].kind part]).map WsMessage.data).flatten ++
          (rest ++ ((all.drop (k + 1)).map WsMessage.data).flatten)
        = ((all.take k).map WsMessage.data).flatten ++
            (part ++ rest ++ ((all.drop (k + 1)).map WsMessage.data).flatten) := by simp
      _ = ((all.take k ++ all[k] :: all.drop (k + 1)).map WsMessage.data).flatten := by
          rw [hrest, List.map_append, List.map_cons, List.flatten_append, List.flatten_cons]
      _ = (all.map WsMessage.data).flatten := by rw [hall]

/-- What holds of the kinds of all messages that were read holds of those that were passed on. -/
theorem Relayed.kinds {all ms : List WsMessage} {read : ℕ} {f : PumpPhase} {P : ℕ → Prop}
    (h : Relayed all read ms f) (hall : ∀ m ∈ all, P m.kind) : ∀ m ∈ ms, P m.kind := by
  obtain ⟨k, rfl | ⟨-, m, part, hk, -, rfl⟩⟩ := h.inOrder
  · exact fun m hm => hall m (List.mem_of_mem_take hm)
  · intro m' hm'
    rcases List.mem_append.mp hm' with hfront | hlast
    · exact hall m' (List.mem_of_mem_take hfront)
    · rw [List.mem_singleton.mp hlast]
      exact hall m (List.mem_of_getElem? hk)

/-- What the two peers of a controller send: the browser anything, and the agent the log in text
messages, as far as its own connection takes them. A message that was refused when a part of it had
gone out is, for the controller, one that was taken and is cut off on the way. -/
def logSides (browser : List WsMessage) (conn : WsConn) (pieces : List (List UInt8)) :
    Side → List WsMessage
  | .a => browser
  | .b => (copyLog (some conn) [] pieces).2.map (WsMessage.mk 1)

/-- **The log of a container that is read through a controller.** Whichever connection fails, and
whenever: the browser gets text messages whose bytes are, joined, a prefix of the log. -/
theorem log_relayed {browser : List WsMessage} {conn : WsConn} {pieces : List (List UInt8)}
    {es : List ProxyEvent} {t : Proxy}
    (hrun : Run (ProxyStep (logSides browser conn pieces)) Proxy.start es t) :
    ((t.conn .a).messages.map WsMessage.data).flatten <+: pieces.flatten ∧
      ∀ m ∈ (t.conn .a).messages, m.kind = 1 := by
  have hpassed : t.PassedAll (logSides browser conn pieces) :=
    hrun.state_invariant (Proxy.PassedAll _) passedAll_start passed_step
  have hrelayed := (hpassed .b).relayed
  constructor
  · have hbytes := hrelayed.bytes
    have hdata : (logSides browser conn pieces .b).map WsMessage.data =
        (copyLog (some conn) [] pieces).2 := by
      rw [logSides, List.map_map]
      exact List.map_id _
    rw [hdata] at hbytes
    exact hbytes.trans (copyLog_isPrefix conn pieces)
  · refine hrelayed.kinds (P := fun kind => kind = 1) fun m hm => ?_
    obtain ⟨data, -, rfl⟩ := List.mem_map.mp hm
    rfl

/-- A log of three bytes, of which one has arrived when the connection to the agent breaks. -/
theorem log_relayed_cut : ∃ t : Proxy, (t.conn .a).messages = [⟨1, [97]⟩] ∧
    ((t.conn .a).messages.map WsMessage.data).flatten <+: [97, 98, 99] := by
  have hlog : logSides [] openConn [[97, 98, 99]] .b = [⟨1, [97, 98, 99]⟩] := by
    have htext : IsText [[(97 : UInt8), 98, 99]].flatten := ⟨['a', 'b', 'c'], by decide⟩
    rw [logSides, copyLog_eq openConn_takes (shortRuns_of_mem htext), List.flatMap_singleton,
      wsTextWriter_short (by decide) (by decide)]
    rfl
  have hnext : ProxyStep (logSides [] openConn [[97, 98, 99]]) .start (.next .b) _ :=
    .next rfl (congrArg (fun ms : List WsMessage => ms[0]?) hlog)
  have hopened := (Run.single hnext).snoc (.opens (s := .b) rfl)
  have hcopied := hopened.snoc
    (@ProxyStep.copies _ _ .b 1 [] [97, 98, 99] 1 rfl (by decide) (by decide) (by decide))
  have hstopped := hcopied.snoc
    (@ProxyStep.stops _ _ .b 1 [97] [98, 99] (some .eof) false rfl nofun nofun)
  have hrun := hstopped.snoc
    (@ProxyStep.finishes _ _ .b 1 [97] (some .eof) rfl ⟨rfl, rfl⟩)
  exact ⟨_, rfl, (log_relayed hrun).1⟩

end Contiwatch
