import FastWebServer.Library.CxxString

/-!
# Reading from and writing to a socket

The loops `readn` and `writen` of `Util.cpp`. The answers of `read` and `write`
are a script, one entry for each call. When the script of `read` is used up,
nothing more has arrived and `read` answers `EAGAIN`; when the script of `write`
is used up, the kernel takes all it is given.

A script that brings bytes and then nothing more is read completely, and the
bytes are appended to the buffer in order (`readn_delivers`). A script of `write`
that only takes bytes and is interrupted empties the buffer (`writen_takes`).
-/

set_option autoImplicit false

namespace FastWebServer

open Cxx

/-- The answer of one call of `read`. -/
inductive ReadResult where
  | data (chunk : Str)
  | eof
  | eintr
  | eagain
  | error
deriving Repr, DecidableEq

/-- The answer of one call of `write`. The kernel takes no more than it is
given. -/
inductive WriteResult where
  | accepted (count : ℕ)
  | eintr
  | eagain
  | error
deriving Repr, DecidableEq

/-! ## readn -/

/-- What `readn` leaves behind. -/
structure Readn where
  ret : ℤ
  buffer : Str
  zero : Bool
  rest : List ReadResult
deriving Repr, DecidableEq

/-- The loop of `readn(int, string&, bool&)`, entered with `sum_read = sum`. -/
def readnLoop : List ReadResult → Str → ℤ → Readn
  | [], buffer, sum => ⟨sum, buffer, false, []⟩
  | .eintr :: script, buffer, sum => readnLoop script buffer sum
  | .eagain :: script, buffer, sum => ⟨sum, buffer, false, script⟩
  | .error :: script, buffer, _ => ⟨-1, buffer, false, script⟩
  | .eof :: script, buffer, sum => ⟨sum, buffer, true, script⟩
  | .data chunk :: script, buffer, sum =>
      readnLoop script (buffer ++ chunk) (sum + chunk.length)

/-- `readn(fd, buffer_in, zero)` with `zero = false`. -/
def readn (script : List ReadResult) (buffer : Str) : Readn := readnLoop script buffer 0

/-- The bytes a script brings before nothing more has arrived, if it neither
ends nor fails. -/
def delivered : List ReadResult → Option Str
  | [] => some []
  | .eintr :: script => delivered script
  | .eagain :: _ => some []
  | .error :: _ => none
  | .eof :: _ => none
  | .data chunk :: script => (delivered script).map (chunk ++ ·)

theorem readnLoop_delivers {script : List ReadResult} {bytes : Str} (buffer : Str) (sum : ℤ)
    (brings : delivered script = some bytes) :
    ∃ rest, readnLoop script buffer sum = ⟨sum + bytes.length, buffer ++ bytes, false, rest⟩ := by
  induction script generalizing buffer sum bytes with
  | nil =>
      simp only [delivered, Option.some.injEq] at brings
      subst brings
      exact ⟨[], by simp [readnLoop]⟩
  | cons result script ih =>
      cases result with
      | eintr => exact ih buffer sum brings
      | eagain =>
          simp only [delivered, Option.some.injEq] at brings
          subst brings
          exact ⟨script, by simp [readnLoop]⟩
      | error => cases brings
      | eof => cases brings
      | data chunk =>
          simp only [delivered, Option.map_eq_some_iff] at brings
          obtain ⟨later, brings, rfl⟩ := brings
          obtain ⟨rest, read⟩ := ih (buffer ++ chunk) (sum + chunk.length) brings
          refine ⟨rest, ?_⟩
          rw [readnLoop, read]
          simp [Int.add_assoc]

/-- **What a script brings is read completely.** -/
theorem readn_delivers {script : List ReadResult} {bytes : Str} (buffer : Str)
    (brings : delivered script = some bytes) :
    ∃ rest, readn script buffer = ⟨bytes.length, buffer ++ bytes, false, rest⟩ := by
  obtain ⟨rest, read⟩ := readnLoop_delivers buffer 0 brings
  exact ⟨rest, by rw [readn, read, Int.zero_add]⟩

/-! ## writen -/

/-- What the loop of `writen` leaves behind: whether it met a hard error, the
bytes the kernel took, and the answers not used. -/
structure WriteLoop where
  failed : Bool
  taken : Str
  rest : List WriteResult
deriving Repr, DecidableEq

/-- The loop of both `writen` functions on the bytes that are left, with `taken`
already taken. -/
def writeLoop : List WriteResult → Str → Str → WriteLoop
  | script, [], taken => ⟨false, taken, script⟩
  | [], c :: left, taken => ⟨false, taken ++ c :: left, []⟩
  | .accepted count :: script, c :: left, taken =>
      writeLoop script ((c :: left).drop count) (taken ++ (c :: left).take count)
  | .eintr :: script, c :: left, taken => writeLoop script (c :: left) taken
  | .eagain :: script, _ :: _, taken => ⟨false, taken, script⟩
  | .error :: script, _ :: _, taken => ⟨true, taken, script⟩

/-- What `writen` leaves behind. -/
structure Writen where
  ret : ℤ
  buffer : Str
  taken : Str
  rest : List WriteResult
deriving Repr, DecidableEq

/-- `writen(fd, buffer)` for a string. A hard error returns before the buffer is
cut. -/
def writen (script : List WriteResult) (buffer : Str) : Writen :=
  let loop := writeLoop script buffer []
  if loop.failed then ⟨-1, buffer, loop.taken, loop.rest⟩
  else if (loop.taken.length : ℤ) = toInt buffer.length then
    ⟨loop.taken.length, [], loop.taken, loop.rest⟩
  else ⟨loop.taken.length, buffer.drop loop.taken.length, loop.taken, loop.rest⟩

/-- A kernel that goes on taking bytes: it neither asks to wait nor fails. -/
def Takes (script : List WriteResult) : Prop :=
  ∀ result ∈ script, result = .eintr ∨ ∃ count, result = .accepted count

theorem takes_nil : Takes [] := fun _ member => absurd member List.not_mem_nil

theorem writeLoop_takes {script : List WriteResult} (left taken : Str) (takes : Takes script) :
    ∃ rest, writeLoop script left taken = ⟨false, taken ++ left, rest⟩ := by
  induction script generalizing left taken with
  | nil =>
      cases left with
      | nil => exact ⟨[], by simp [writeLoop]⟩
      | cons c left => exact ⟨[], by simp [writeLoop]⟩
  | cons result script ih =>
      have later : Takes script := fun r member => takes r (List.mem_cons_of_mem _ member)
      cases left with
      | nil => exact ⟨result :: script, by simp [writeLoop]⟩
      | cons c left =>
          rcases takes result (List.mem_cons_self ..) with rfl | ⟨count, rfl⟩
          · exact ih (c :: left) taken later
          · obtain ⟨rest, wrote⟩ :=
              ih ((c :: left).drop count) (taken ++ (c :: left).take count) later
            refine ⟨rest, ?_⟩
            rw [writeLoop, wrote, List.append_assoc, List.take_append_drop]

/-- What `writen` leaves where the loop has written everything. -/
theorem writen_all {script rest : List WriteResult} {buffer : Str}
    (wrote : writeLoop script buffer [] = ⟨false, buffer, rest⟩) :
    writen script buffer = ⟨buffer.length, [], buffer, rest⟩ := by
  simp only [writen, wrote, Bool.false_eq_true, if_false]
  split
  · rfl
  · rw [List.drop_length]

/-- **A kernel that goes on taking bytes empties the buffer.** -/
theorem writen_takes {script : List WriteResult} (buffer : Str) (takes : Takes script) :
    ∃ rest, writen script buffer = ⟨buffer.length, [], buffer, rest⟩ := by
  obtain ⟨rest, wrote⟩ := writeLoop_takes buffer [] takes
  exact ⟨rest, writen_all wrote⟩

end FastWebServer
