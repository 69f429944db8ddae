import FastWebServer.Util

/-!
# Reading until nothing is left

The two overloads of `readn` that append to a string. A socket in edge-triggered mode has to be read
until `EAGAIN`, so a script is read up to its first result that is neither a chunk nor an
interruption. `Passing` are the results before it, and `chunks` the bytes they bring.

The two loops are written separately, and agree on every script (`plainReadn_eq`). Both consume a
script up to its first stop, append what it brought, count it, and answer `-1` for an error alone
(`readn_lossless`).
-/

set_option autoImplicit false

namespace FastWebServer

open Cxx

/-! ## The overload without a flag -/

/-- What `readn(int, string&)` leaves behind. -/
structure PlainReadn where
  ret : ℤ
  buffer : Str
  rest : List ReadResult
deriving Repr, DecidableEq

/-- The loop of `readn(int, string&)`, entered with `sum_read = sum`. -/
def plainReadnLoop : List ReadResult → Str → ℤ → PlainReadn
  | [], buffer, sum => ⟨sum, buffer, []⟩
  | .eintr :: script, buffer, sum => plainReadnLoop script buffer sum
  | .eagain :: script, buffer, sum => ⟨sum, buffer, script⟩
  | .error :: script, buffer, _ => ⟨-1, buffer, script⟩
  | .eof :: script, buffer, sum => ⟨sum, buffer, script⟩
  | .data chunk :: script, buffer, sum =>
      plainReadnLoop script (buffer ++ chunk) (sum + chunk.length)

/-- `readn(fd, buffer_in)`. -/
def plainReadn (script : List ReadResult) (buffer : Str) : PlainReadn :=
  plainReadnLoop script buffer 0

/-! ## Results that do not stop -/

/-- Results that neither loop stops at. -/
def Passing (script : List ReadResult) : Prop :=
  ∀ result ∈ script, result = .eintr ∨ ∃ chunk, result = .data chunk

/-- The bytes that a result brings. -/
def ReadResult.bytes : ReadResult → Str
  | .data chunk => chunk
  | _ => []

/-- The bytes that a script brings. -/
def chunks (script : List ReadResult) : Str := script.flatMap ReadResult.bytes

/-- A result that stops both loops. -/
def ReadResult.Stops (result : ReadResult) : Prop :=
  result = .eof ∨ result = .eagain ∨ result = .error

/-- The answer at a stop, when this many bytes have been read. -/
def answer (stop : ReadResult) (count : ℤ) : ℤ := if stop = .error then -1 else count

variable {earlier : List ReadResult} {stop : ReadResult} {rest : List ReadResult}

theorem Passing.tail {result : ReadResult} (passing : Passing (result :: earlier)) :
    Passing earlier :=
  fun other member => passing other (List.mem_cons_of_mem _ member)

theorem readnLoop_drains (passing : Passing earlier) (stops : stop.Stops) (buffer : Str) (sum : ℤ) :
    readnLoop (earlier ++ stop :: rest) buffer sum =
      ⟨answer stop (sum + (chunks earlier).length), buffer ++ chunks earlier,
        decide (stop = .eof), rest⟩ := by
  induction earlier generalizing buffer sum with
  | nil =>
      have none : chunks [] = [] := rfl
      rw [none, List.append_nil, List.length_nil, Nat.cast_zero, Int.add_zero]
      rcases stops with rfl | rfl | rfl
      · rfl
      · rfl
      · rfl
  | cons result earlier ih =>
      rcases passing result (List.mem_cons_self ..) with rfl | ⟨chunk, rfl⟩
      · exact ih passing.tail buffer sum
      · have split : chunks (.data chunk :: earlier) = chunk ++ chunks earlier := rfl
        rw [List.cons_append, readnLoop, ih passing.tail, split, List.append_assoc,
          List.length_append, Nat.cast_add, Int.add_assoc]

/-- The two loops agree. -/
theorem plainReadnLoop_eq (script : List ReadResult) (buffer : Str) (sum : ℤ) :
    plainReadnLoop script buffer sum =
      ⟨(readnLoop script buffer sum).ret, (readnLoop script buffer sum).buffer,
        (readnLoop script buffer sum).rest⟩ := by
  induction script generalizing buffer sum with
  | nil => rfl
  | cons result script ih =>
      cases result with
      | eagain | error | eof => rfl
      | eintr => exact ih buffer sum
      | data chunk => exact ih (buffer ++ chunk) (sum + chunk.length)

/-- **The two overloads agree** on the answer, the buffer and what they consume. -/
theorem plainReadn_eq (script : List ReadResult) (buffer : Str) :
    plainReadn script buffer =
      ⟨(readn script buffer).ret, (readn script buffer).buffer, (readn script buffer).rest⟩ :=
  plainReadnLoop_eq script buffer 0

/-- A script with a stop has a first one. -/
theorem exists_firstStop {script : List ReadResult} (comes : ∃ result ∈ script, result.Stops) :
    ∃ earlier stop rest, script = earlier ++ stop :: rest ∧ Passing earlier ∧ stop.Stops := by
  induction script with
  | nil =>
      obtain ⟨result, member, -⟩ := comes
      cases member
  | cons result script ih =>
      by_cases stops : result.Stops
      · exact ⟨[], result, script, rfl, fun _ member => absurd member List.not_mem_nil, stops⟩
      · have later : ∃ result ∈ script, result.Stops := by
          obtain ⟨other, member, stop⟩ := comes
          rcases List.mem_cons.mp member with rfl | member
          · exact absurd stop stops
          · exact ⟨other, member, stop⟩
        obtain ⟨earlier, stop, rest, rfl, passing, stop'⟩ := ih later
        refine ⟨result :: earlier, stop, rest, rfl, ?_, stop'⟩
        intro other member
        rcases List.mem_cons.mp member with rfl | member
        · cases other with
          | data chunk => exact .inr ⟨chunk, rfl⟩
          | eintr => exact .inl rfl
          | eof => exact absurd (.inl rfl) stops
          | eagain => exact absurd (.inr (.inl rfl)) stops
          | error => exact absurd (.inr (.inr rfl)) stops
        · exact passing other member

/-- **A socket is drained without loss.** Both overloads consume a script up to its first stop,
append the chunks before it to the buffer, and answer their length, or `-1` for an error. The flag
is set for the end of file. -/
theorem readn_lossless {script : List ReadResult} (buffer : Str)
    (comes : ∃ result ∈ script, result.Stops) :
    ∃ earlier stop rest, script = earlier ++ stop :: rest ∧ Passing earlier ∧ stop.Stops ∧
      readn script buffer =
        ⟨answer stop (chunks earlier).length, buffer ++ chunks earlier, decide (stop = .eof), rest⟩ ∧
      plainReadn script buffer =
        ⟨answer stop (chunks earlier).length, buffer ++ chunks earlier, rest⟩ := by
  obtain ⟨earlier, stop, rest, rfl, passing, stops⟩ := exists_firstStop comes
  have drained : readn (earlier ++ stop :: rest) buffer =
      ⟨answer stop (chunks earlier).length, buffer ++ chunks earlier, decide (stop = .eof), rest⟩ := by
    rw [readn, readnLoop_drains passing stops, Int.zero_add]
  refine ⟨earlier, stop, rest, rfl, passing, stops, drained, ?_⟩
  rw [plainReadn_eq, drained]

/-- Two chunks, an interruption between them, and the end of file. -/
theorem twoChunks_drained :
    ∃ earlier stop rest,
      [.data "ab".toList, .eintr, .data "c".toList, .eof, .eagain] = earlier ++ stop :: rest ∧
      Passing earlier ∧ stop.Stops ∧
      readn [.data "ab".toList, .eintr, .data "c".toList, .eof, .eagain] [] =
        ⟨answer stop (chunks earlier).length, [] ++ chunks earlier, decide (stop = .eof), rest⟩ ∧
      plainReadn [.data "ab".toList, .eintr, .data "c".toList, .eof, .eagain] [] =
        ⟨answer stop (chunks earlier).length, [] ++ chunks earlier, rest⟩ :=
  readn_lossless [] ⟨.eof, by decide, .inl rfl⟩

end FastWebServer
