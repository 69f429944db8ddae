import FastWebServer.LoopThread
import FastWebServer.Library.Operations
import FastWebServer.Util.PartialWrite

/-!
# The output of a connection

What is appended to `buffer_out_` should reach the socket once, in order. A `Stream` is a connection
with the bytes that were appended so far, and with what had been sent when a write failed, if one
did. Its operations append bytes, or run `handle_write` with a script of `write`.

A stream is `Intact` if what was sent is a beginning of what was appended, if without a failure the
rest is in the buffer and asked for, and if nothing is sent behind a failure. It is intact
throughout exactly when no call of `writen` misses the rest of its buffer (`streamIntact_iff`). That
takes a buffer of 4 GiB or more (`MissesRest.long`).
-/

set_option autoImplicit false

namespace FastWebServer

open Cxx

/-- A connection and the history of its output. -/
structure Stream where
  conn : Conn
  appended : Str
  /-- What had been sent when the first write failed. -/
  halted : Option Str
  /-- Whether the last operation was `handle_write`. -/
  wrote : Bool

/-- An operation on the output. -/
inductive OutputOperation where
  | append (bytes : Str)
  | handleWrite (writes : List WriteResult)

namespace Stream

variable {stream : Stream}

/-- The output of a connection from now on. -/
def start (conn : Conn) : Stream :=
  { conn := conn
    appended := conn.io.sent ++ conn.http.bufferOut
    halted := none
    wrote := false }

/-- The connection with this script of `write`. -/
def offered (stream : Stream) (writes : List WriteResult) : Conn :=
  { stream.conn with io := { stream.conn.io with writes := writes } }

/-- Whether `handle_write` goes on to write. -/
def Active (stream : Stream) : Prop :=
  stream.conn.http.isError = false ∧ stream.conn.http.connectionState ≠ .disconnected

instance (stream : Stream) : Decidable stream.Active := by
  unfold Active
  infer_instance

/-- Whether a write meets a hard error. -/
def Fails (writes : List WriteResult) (stream : Stream) : Prop :=
  stream.Active ∧ (writeLoop writes stream.conn.http.bufferOut []).failed = true

instance (writes : List WriteResult) (stream : Stream) : Decidable (Fails writes stream) := by
  unfold Fails
  infer_instance

/-- What an operation does. -/
def run : OutputOperation → Stream → Stream
  | .append bytes, stream =>
      { stream with
        conn := { stream.conn with
          http := { stream.conn.http with bufferOut := stream.conn.http.bufferOut ++ bytes } }
        appended := stream.appended ++ bytes
        wrote := false }
  | .handleWrite writes, stream =>
      { stream with
        conn := (stream.offered writes).handleWrite
        halted :=
          if stream.halted = none ∧ Fails writes stream then
            some (stream.offered writes).handleWrite.io.sent
          else stream.halted
        wrote := true }

/-- The output is delivered once and in order as far as it goes, and a failure ends it. -/
structure Intact (stream : Stream) : Prop where
  front : stream.conn.io.sent <+: stream.appended
  whole : stream.halted = none →
    stream.conn.io.sent ++ stream.conn.http.bufferOut = stream.appended
  asked : stream.halted = none → stream.wrote = true → stream.conn.http.bufferOut ≠ [] →
    stream.conn.http.channel.events.meets epollOut = true
  ended : ∀ sent, stream.halted = some sent →
    stream.conn.http.isError = true ∧ stream.conn.io.sent = sent

/-- The call of `writen`, if there is one, finds the rest of its buffer. -/
def FindsRest : OutputOperation → Stream → Prop
  | .append _, _ => True
  | .handleWrite writes, stream =>
      stream.Active → ¬ MissesRest writes stream.conn.http.bufferOut

/-! ## Operations -/

/-- What is kept of a stream: it is intact, and its connection has failed only in a write. -/
structure Invariant (stream : Stream) : Prop where
  intact : stream.Intact
  connected : stream.conn.http.connectionState ≠ .disconnected
  failed : stream.halted = none → stream.conn.http.isError = false

theorem invariant_start {conn : Conn} (connected : conn.http.connectionState ≠ .disconnected)
    (unfailed : conn.http.isError = false) : (start conn).Invariant where
  intact :=
    { front := List.prefix_append _ _
      whole := fun _ => rfl
      asked := fun _ wrote => by cases wrote
      ended := fun _ halted => by cases halted }
  connected := connected
  failed := fun _ => unfailed

theorem invariant_append (invariant : stream.Invariant) (bytes : Str) :
    (run (.append bytes) stream).Invariant where
  intact :=
    { front := invariant.intact.front.trans (List.prefix_append _ _)
      whole := fun halted => by
        show stream.conn.io.sent ++ (stream.conn.http.bufferOut ++ bytes) = stream.appended ++ bytes
        rw [← invariant.intact.whole halted, List.append_assoc]
      asked := fun _ wrote => by cases wrote
      ended := invariant.intact.ended }
  connected := invariant.connected
  failed := invariant.failed

/-- Nothing has failed as long as `handle_write` goes on to write. -/
theorem Invariant.running (invariant : stream.Invariant) (active : stream.Active) :
    stream.halted = none := by
  cases halted : stream.halted with
  | none => rfl
  | some sent =>
      have failed := (invariant.intact.ended sent halted).1
      rw [active.1] at failed
      cases failed

/-- What `handle_write` does when it writes. -/
theorem handleWrite_active (active : stream.Active) (writes : List WriteResult) :
    ∃ events, (stream.offered writes).handleWrite.http =
        { stream.conn.http with
          bufferOut := (writen writes stream.conn.http.bufferOut).buffer
          isError := decide ((writen writes stream.conn.http.bufferOut).ret < 0)
          channel := { stream.conn.http.channel with events := events } } ∧
      (stream.offered writes).handleWrite.io.sent =
        stream.conn.io.sent ++ (writen writes stream.conn.http.bufferOut).taken ∧
      ((writen writes stream.conn.http.bufferOut).buffer ≠ [] → events.meets epollOut = true) := by
  obtain ⟨events, written, asks⟩ :=
    Conn.afterWriten_eq stream.conn.http (writen writes stream.conn.http.bufferOut)
  rw [active.1, Bool.or_false] at written
  have enters : (stream.offered writes).http.isError = false ∧
      (stream.offered writes).http.connectionState ≠ .disconnected := active
  refine ⟨events, ?_, ?_, asks⟩
  · rw [Conn.handleWrite, if_pos enters]
    exact written
  · rw [Conn.handleWrite, if_pos enters]
    rfl

/-- A connection that has failed writes nothing. -/
theorem handleWrite_inactive (inactive : ¬ stream.Active) (writes : List WriteResult) :
    (stream.offered writes).handleWrite.http = stream.conn.http ∧
      (stream.offered writes).handleWrite.io.sent = stream.conn.io.sent := by
  have stays : ¬ ((stream.offered writes).http.isError = false ∧
      (stream.offered writes).http.connectionState ≠ .disconnected) := inactive
  rw [Conn.handleWrite, if_neg stays]
  exact ⟨rfl, rfl⟩

/-- A write without a hard error ends nothing. -/
theorem halted_of_sound (running : stream.halted = none) {writes : List WriteResult}
    (sound : 0 ≤ (writen writes stream.conn.http.bufferOut).ret) :
    (run (.handleWrite writes) stream).halted = none := by
  have unfailed : ¬ (stream.halted = none ∧ Fails writes stream) := by
    rintro ⟨-, -, failed⟩
    have negative := writen_fails.mpr failed
    omega
  exact (if_neg unfailed).trans running

/-- A write that fails ends the stream where it stands. -/
theorem invariant_of_failed (invariant : stream.Invariant) (active : stream.Active)
    {writes : List WriteResult}
    (front : (stream.offered writes).handleWrite.io.sent <+: stream.appended)
    (failed : (writen writes stream.conn.http.bufferOut).ret < 0) :
    (run (.handleWrite writes) stream).Invariant := by
  obtain ⟨events, http, -, -⟩ := handleWrite_active active writes
  have halted : (run (.handleWrite writes) stream).halted =
      some (stream.offered writes).handleWrite.io.sent :=
    if_pos ⟨invariant.running active, active, writen_fails.mp failed⟩
  refine ⟨⟨front, ?_, ?_, ?_⟩, ?_, ?_⟩
  · intro none
    cases halted.symm.trans none
  · intro none
    cases halted.symm.trans none
  · intro sent' some
    cases halted.symm.trans some
    exact ⟨(congrArg HttpData.isError http).trans (decide_eq_true failed), rfl⟩
  · intro gone
    exact active.2 ((congrArg HttpData.connectionState http).symm.trans gone)
  · intro none
    cases halted.symm.trans none

/-- A write that cuts off what it has sent leaves the rest and asks for it. -/
theorem invariant_of_cut (invariant : stream.Invariant) (active : stream.Active)
    {writes : List WriteResult}
    (front : (stream.offered writes).handleWrite.io.sent <+: stream.appended)
    (sound : 0 ≤ (writen writes stream.conn.http.bufferOut).ret)
    (cut : (writen writes stream.conn.http.bufferOut).taken ++
      (writen writes stream.conn.http.bufferOut).buffer = stream.conn.http.bufferOut) :
    (run (.handleWrite writes) stream).Invariant := by
  have running := invariant.running active
  have halted := halted_of_sound running sound
  obtain ⟨events, http, sent, asks⟩ := handleWrite_active active writes
  have buffer := congrArg HttpData.bufferOut http
  refine ⟨⟨front, ?_, ?_, ?_⟩, ?_, ?_⟩
  · intro _
    show (stream.offered writes).handleWrite.io.sent ++
      (stream.offered writes).handleWrite.http.bufferOut = stream.appended
    rw [sent, buffer, List.append_assoc, cut, invariant.intact.whole running]
  · intro _ _ remains
    show (stream.offered writes).handleWrite.http.channel.events.meets epollOut = true
    rw [http]
    exact asks fun none => remains (buffer.trans none)
  · intro sent' some
    cases halted.symm.trans some
  · intro gone
    exact active.2 ((congrArg HttpData.connectionState http).symm.trans gone)
  · intro _
    exact (congrArg HttpData.isError http).trans (decide_eq_false (not_lt.mpr sound))

/-- A connection that does not write stays as it is. -/
theorem invariant_of_inactive (invariant : stream.Invariant) (inactive : ¬ stream.Active)
    (writes : List WriteResult) : (run (.handleWrite writes) stream).Invariant := by
  obtain ⟨http, sent⟩ := handleWrite_inactive inactive writes
  have ended : stream.halted ≠ none := fun running =>
    inactive ⟨invariant.failed running, invariant.connected⟩
  have halted : (run (.handleWrite writes) stream).halted = stream.halted :=
    if_neg fun fails => ended fails.1
  refine ⟨⟨?_, ?_, ?_, ?_⟩, ?_, ?_⟩
  · show (stream.offered writes).handleWrite.io.sent <+: stream.appended
    rw [sent]
    exact invariant.intact.front
  · intro none
    exact absurd (halted.symm.trans none) ended
  · intro none
    exact absurd (halted.symm.trans none) ended
  · intro sent' some
    show (stream.offered writes).handleWrite.http.isError = true ∧
      (stream.offered writes).handleWrite.io.sent = sent'
    rw [http, sent]
    exact invariant.intact.ended sent' (halted.symm.trans some)
  · show (stream.offered writes).handleWrite.http.connectionState ≠ .disconnected
    rw [http]
    exact invariant.connected
  · intro none
    exact absurd (halted.symm.trans none) ended

/-- **`handle_write` keeps a stream intact**, if it finds the rest of its buffer. -/
theorem invariant_handleWrite (invariant : stream.Invariant) {writes : List WriteResult}
    (finds : FindsRest (.handleWrite writes) stream) :
    (run (.handleWrite writes) stream).Invariant := by
  by_cases active : stream.Active
  · obtain ⟨events, -, sent, -⟩ := handleWrite_active active writes
    obtain ⟨taken, outcome⟩ := writen_cuts (finds active)
    have front : (stream.offered writes).handleWrite.io.sent <+: stream.appended := by
      rw [sent, ← invariant.intact.whole (invariant.running active)]
      exact (List.prefix_append_right_inj _).mpr taken
    rcases outcome with failed | ⟨sound, cut⟩
    · exact invariant_of_failed invariant active front failed
    · exact invariant_of_cut invariant active front sound cut
  · exact invariant_of_inactive invariant active writes

/-- **A rest that is missed is lost** for the stream. -/
theorem not_intact_handleWrite (invariant : stream.Invariant) {writes : List WriteResult}
    (misses : ¬ FindsRest (.handleWrite writes) stream) :
    ¬ (run (.handleWrite writes) stream).Intact := by
  unfold FindsRest at misses
  push Not at misses
  obtain ⟨active, misses⟩ := misses
  obtain ⟨sound, empty, fewer⟩ := writen_loses misses
  obtain ⟨events, http, sent, -⟩ := handleWrite_active active writes
  have running := invariant.running active
  have halted := halted_of_sound running sound
  intro intact
  have after : (stream.offered writes).handleWrite.io.sent ++
      (stream.offered writes).handleWrite.http.bufferOut = stream.appended := intact.whole halted
  rw [sent, congrArg HttpData.bufferOut http, ← invariant.intact.whole running] at after
  have lengths := congrArg List.length after
  rw [List.length_append, List.length_append, List.length_append, empty, List.length_nil] at lengths
  omega

/-! ## Sequences of operations -/

/-- **The output is delivered once and in order exactly** as long as no call of `writen` misses the
rest of its buffer. -/
theorem streamIntact_iff {conn : Conn} (connected : conn.http.connectionState ≠ .disconnected)
    (unfailed : conn.http.isError = false) (operations : List OutputOperation) :
    (∀ earlier, earlier <+: operations → (Operations.after run earlier (start conn)).Intact) ↔
      Operations.Each run FindsRest operations (start conn) := by
  refine Operations.holds_iff (fun _ invariant => invariant.intact) ?_ ?_ operations
    (invariant_start connected unfailed)
  · intro operation stream invariant finds
    cases operation with
    | append bytes => exact invariant_append invariant bytes
    | handleWrite writes => exact invariant_handleWrite invariant finds
  · intro operation stream invariant misses
    cases operation with
    | append bytes => exact absurd trivial misses
    | handleWrite writes => exact not_intact_handleWrite invariant misses

/-! ## Two outputs -/

/-- A new connection. -/
def opened : Conn := ⟨HttpData.new 5, Io.unused, Loop.new⟩

/-- A response that the kernel takes in two parts. -/
theorem twoParts_intact :
    (Operations.after run [.append "abc".toList, .handleWrite [.accepted 1, .eagain]]
      (start opened)).Intact := by
  refine (@streamIntact_iff opened ConnectionState.noConfusion rfl
    [.append "abc".toList, .handleWrite [.accepted 1, .eagain]]).mpr ⟨trivial, fun _ misses => ?_,
      trivial⟩ _ List.prefix_rfl
  have long := misses.long
  have short : (run (.append "abc".toList) (start opened)).conn.http.bufferOut.length = 3 := rfl
  omega

/-- A response of five bytes more than 4 GiB. -/
@[irreducible] def longResponse : Str := List.replicate (2 ^ 32 + 5) 'a'

theorem length_longResponse : longResponse.length = 2 ^ 32 + 5 := by
  unfold longResponse
  exact List.length_replicate

/-- The kernel takes five bytes and asks to wait, and all the others are dropped. -/
theorem longResponse_lost :
    ¬ ∀ earlier, earlier <+: [.append longResponse, .handleWrite [.accepted 5, .eagain]] →
      (Operations.after run earlier (start opened)).Intact := by
  have invariant : (run (.append longResponse) (start opened)).Invariant :=
    invariant_append (invariant_start ConnectionState.noConfusion rfl) longResponse
  have buffer : (run (.append longResponse) (start opened)).conn.http.bufferOut = longResponse :=
    rfl
  intro intact
  refine not_intact_handleWrite invariant ?_ (intact _ List.prefix_rfl)
  intro finds
  apply finds ⟨rfl, ConnectionState.noConfusion⟩
  rw [buffer]
  have accepts : counts [.accepted 5] = 5 := rfl
  refine ⟨⟨[.accepted 5], .eagain, [], rfl, ?_, .inl rfl, ?_⟩, rfl, ?_⟩
  · intro result member
    exact .inr ⟨5, List.mem_singleton.mp member⟩
  · rw [accepts, length_longResponse]
    omega
  · show (counts [.accepted 5] : ℤ) = toInt longResponse.length
    rw [accepts, length_longResponse]
    decide

end Stream

end FastWebServer
