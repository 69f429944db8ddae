import FastWebServer.Util

/-!
# Reading a fixed number of bytes

The overload `readn(int, void*, size_t)`, which the event loop uses for its wakeup descriptor. Its
loop tests for the end of file with `n_read = 0`, which assigns and is false. So no byte that is
read is ever counted, each chunk is written over the one before, and neither the end of file nor the
last byte that is wanted ends the loop.

`arrival` is what the function is for: the bytes that a script brings up to its first stop. The
function does that exactly for nothing wanted, for a script that stops with an error, and for one
that has to wait before the first byte (`fixedRead_iff`).
-/

set_option autoImplicit false

namespace FastWebServer

open Cxx

/-! ## The loop -/

/-- The memory of the caller, by the distance from `buffer`. -/
abbrev Region := ℕ → Char

/-- The memory after `read` has stored a chunk. -/
def Region.write (region : Region) (offset : ℕ) (chunk : Str) : Region := fun address =>
  if offset ≤ address then chunk.getD (address - offset) (region address) else region address

/-- What the function leaves behind. -/
structure FixedReadn where
  ret : ℤ
  region : Region
  rest : List ReadResult

/-- The loop of `readn(int, void*, size_t)`. It answers `none` if it is still reading at the end of
the script. -/
def fixedReadnLoop : List ReadResult → Region → ℕ → ℤ → ℕ → Option FixedReadn
  | script, region, 0, sumRead, _ => some ⟨sumRead, region, script⟩
  | [], _, _ + 1, _, _ => none
  | .eagain :: script, region, _ + 1, sumRead, _ => some ⟨sumRead, region, script⟩
  | .error :: script, region, _ + 1, _, _ => some ⟨-1, region, script⟩
  -- `n_read = 0`, where it is interrupted and in the test for the end of file
  | .eintr :: script, region, nLeft + 1, sumRead, buffPtr =>
      fixedReadnLoop script region (nLeft + 1 - 0) (sumRead + 0) (buffPtr + 0)
  | .eof :: script, region, nLeft + 1, sumRead, buffPtr =>
      fixedReadnLoop script region (nLeft + 1 - 0) (sumRead + 0) (buffPtr + 0)
  | .data chunk :: script, region, nLeft + 1, sumRead, buffPtr =>
      fixedReadnLoop script (region.write buffPtr chunk) (nLeft + 1 - 0) (sumRead + 0) (buffPtr + 0)

/-- `readn(fd, buffer, n)`. -/
def fixedReadn (script : List ReadResult) (region : Region) (n : ℕ) : Option FixedReadn :=
  fixedReadnLoop script region n 0 0

/-! ## What the function is for -/

/-- Why reading stops. -/
inductive Stop where
  /-- All bytes that are wanted have been read. -/
  | full
  | eof
  | eagain
  | error
deriving Repr, DecidableEq

/-- The bytes up to the first stop, and the results behind it. -/
structure Arrival where
  stop : Stop
  bytes : Str
  rest : List ReadResult

/-- What a script brings if this many bytes are wanted, if it comes to a stop. -/
def arrival : ℕ → List ReadResult → Option Arrival
  | 0, script => some ⟨.full, [], script⟩
  | _ + 1, [] => none
  | _ + 1, .eof :: script => some ⟨.eof, [], script⟩
  | _ + 1, .eagain :: script => some ⟨.eagain, [], script⟩
  | _ + 1, .error :: script => some ⟨.error, [], script⟩
  | wanted + 1, .eintr :: script => arrival (wanted + 1) script
  | wanted + 1, .data chunk :: script =>
      (arrival (wanted + 1 - chunk.length) script).map fun later =>
        { later with bytes := chunk ++ later.bytes }

/-- A script that comes to a stop makes the function return there. An answer that is not negative
is the number of the bytes that were read, no more than were wanted, and these are in the buffer, in
order. -/
def FixedRead (script : List ReadResult) (region : Region) (n : ℕ) : Prop :=
  ∀ arrived, arrival n script = some arrived →
    ∃ read, fixedReadn script region n = some read ∧ read.rest = arrived.rest ∧
      (0 ≤ read.ret → read.ret = arrived.bytes.length ∧ arrived.bytes.length ≤ n ∧
        (List.range arrived.bytes.length).map read.region = arrived.bytes)

/-! ## What the loop does -/

variable {script : List ReadResult} {region : Region} {nLeft : ℕ}

theorem arrival_zero (script : List ReadResult) : arrival 0 script = some ⟨.full, [], script⟩ := by
  cases script with
  | nil => rfl
  | cons result script => rfl

/-- A loop that returns has used a result. -/
theorem fixedReadnLoop_shorter {sumRead : ℤ} {buffPtr : ℕ} {read : FixedReadn}
    (ran : fixedReadnLoop script region (nLeft + 1) sumRead buffPtr = some read) :
    read.rest.length < script.length := by
  induction script generalizing region sumRead buffPtr with
  | nil => cases ran
  | cons result script ih =>
      cases result with
      | eagain | error =>
          cases ran
          exact Nat.lt_succ_self _
      | eintr | eof | data chunk => exact Nat.lt_succ_of_lt (ih ran)

/-- **The loop stops for an error and for nothing to read**, and has counted nothing. -/
theorem fixedReadnLoop_stops {wanted : ℕ} {arrived : Arrival}
    (arrives : arrival (wanted + 1) script = some arrived) :
    (arrived.stop = .error → ∃ region', fixedReadnLoop script region (nLeft + 1) 0 0 =
      some ⟨-1, region', arrived.rest⟩) ∧
    (arrived.stop = .eagain → ∃ region', fixedReadnLoop script region (nLeft + 1) 0 0 =
      some ⟨0, region', arrived.rest⟩) ∧
    (arrived.stop = .eof ∨ arrived.stop = .full →
      ∀ read, fixedReadnLoop script region (nLeft + 1) 0 0 = some read →
        read.rest.length < arrived.rest.length) := by
  induction script generalizing region wanted arrived with
  | nil => cases arrives
  | cons result script ih =>
      cases result with
      | eagain =>
          cases arrives
          exact ⟨nofun, fun _ => ⟨region, rfl⟩, by rintro (stop | stop) <;> cases stop⟩
      | error =>
          cases arrives
          exact ⟨fun _ => ⟨region, rfl⟩, nofun, by rintro (stop | stop) <;> cases stop⟩
      | eintr => exact ih arrives
      | eof =>
          cases arrives
          exact ⟨nofun, nofun, fun _ read ran => fixedReadnLoop_shorter ran⟩
      | data chunk =>
          simp only [arrival, Option.map_eq_some_iff] at arrives
          obtain ⟨later, arrives, rfl⟩ := arrives
          cases left : wanted + 1 - chunk.length with
          | zero =>
              rw [left, arrival_zero] at arrives
              cases arrives
              exact ⟨nofun, nofun, fun _ read ran => fixedReadnLoop_shorter ran⟩
          | succ wanted' =>
              rw [left] at arrives
              exact @ih (region.write 0 chunk) wanted' later arrives

/-- A script brings something for nothing wanted. -/
theorem fixedRead_zero (script : List ReadResult) (region : Region) :
    FixedRead script region 0 := by
  intro arrived arrives
  have read : fixedReadn script region 0 = some ⟨0, region, script⟩ := by
    cases script with
    | nil => rfl
    | cons result script => rfl
  rw [arrival_zero] at arrives
  cases arrives
  exact ⟨_, read, rfl, fun _ => ⟨rfl, le_rfl, rfl⟩⟩

/-- **The function does what it is for exactly** if nothing is wanted, or the script comes to no
stop, or to an error, or has to wait before it has brought a byte. -/
theorem fixedRead_iff (script : List ReadResult) (region : Region) (n : ℕ) :
    FixedRead script region n ↔
      n = 0 ∨ ∀ arrived, arrival n script = some arrived →
        arrived.stop = .error ∨ arrived.stop = .eagain ∧ arrived.bytes = [] := by
  cases n with
  | zero => exact iff_of_true (fixedRead_zero script region) (.inl rfl)
  | succ n =>
      constructor
      · intro reads
        refine .inr fun arrived arrives => ?_
        obtain ⟨read, ran, rest, counted⟩ := reads arrived arrives
        obtain ⟨-, waits, goesOn⟩ := @fixedReadnLoop_stops script region n n arrived arrives
        have shorter := fun stop => goesOn stop read ran
        rw [rest] at shorter
        cases stop : arrived.stop with
        | full => exact absurd (shorter (.inr stop)) (lt_irrefl _)
        | eof => exact absurd (shorter (.inl stop)) (lt_irrefl _)
        | error => exact .inl rfl
        | eagain =>
            obtain ⟨region', waited⟩ := waits stop
            cases ran.symm.trans waited
            have none : (0 : ℤ) = arrived.bytes.length := (counted le_rfl).1
            exact .inr ⟨rfl, List.length_eq_zero_iff.mp (by omega)⟩
      · rintro (zero | stops) arrived arrives
        · cases zero
        · obtain ⟨fails, waits, -⟩ := @fixedReadnLoop_stops script region n n arrived arrives
          rcases stops arrived arrives with failed | ⟨waited, empty⟩
          · obtain ⟨region', ran⟩ := fails failed
            exact ⟨_, ran, rfl, fun answered => by cases answered⟩
          · obtain ⟨region', ran⟩ := waits waited
            refine ⟨_, ran, rfl, fun _ => ?_⟩
            rw [empty]
            exact ⟨rfl, Nat.zero_le _, rfl⟩

/-- The eight bytes of the wakeup descriptor arrive, and are not counted. -/
theorem eightBytes_uncounted :
    (fixedReadn [.data "ABCDEFGH".toList, .eagain] (fun _ => ' ') 8).map (·.ret) = some 0 ∧
      ¬ FixedRead [.data "ABCDEFGH".toList, .eagain] (fun _ => ' ') 8 := by
  refine ⟨rfl, fun reads => ?_⟩
  obtain ⟨read, ran, rest, -⟩ := reads _ rfl
  cases ran
  cases rest

end FastWebServer
