import FastWebServer.Util

/-!
# Writing until the kernel has enough

What `writen` makes of a script of `write`. The loop takes everything, or it comes to an `EAGAIN` or
an error before that (`exists_writeStop`), and then it has written the bytes that were accepted so
far (`writeLoop_stops`).

Afterwards the buffer is cut by what was written, with one exception. Whether everything was written
is decided by a comparison with the size as an `int`, so a write that stops after that many bytes of
a buffer of 4 GiB or more clears what is left (`MissesRest`). `writen_cuts` and `writen_loses` are
the two cases.
-/

set_option autoImplicit false

namespace FastWebServer

open Cxx

/-- The bytes that a result accepts. -/
def WriteResult.count : WriteResult → ℕ
  | .accepted count => count
  | _ => 0

/-- The bytes that a script accepts. -/
def counts (script : List WriteResult) : ℕ := (script.map WriteResult.count).sum

@[simp] theorem counts_nil : counts [] = 0 := rfl

@[simp] theorem counts_eintr (script : List WriteResult) :
    counts (.eintr :: script) = counts script := by
  rw [counts, List.map_cons, List.sum_cons]
  exact Nat.zero_add _

@[simp] theorem counts_accepted (count : ℕ) (script : List WriteResult) :
    counts (.accepted count :: script) = count + counts script := List.sum_cons

/-- A script that comes to a stop before this many bytes are accepted. -/
structure StopsBefore (size : ℕ) (script : List WriteResult) where
  earlier : List WriteResult
  stop : WriteResult
  later : List WriteResult
  split : script = earlier ++ stop :: later
  takes : Takes earlier
  stops : stop = .eagain ∨ stop = .error
  early : counts earlier < size

theorem writeLoop_until {earlier later : List WriteResult} {stop : WriteResult}
    (takes : Takes earlier) (stops : stop = .eagain ∨ stop = .error) (left taken : Str)
    (early : counts earlier < left.length) :
    writeLoop (earlier ++ stop :: later) left taken =
      ⟨decide (stop = .error), taken ++ left.take (counts earlier), later⟩ := by
  induction earlier generalizing left taken with
  | nil =>
      cases left with
      | nil => exact absurd early (Nat.not_lt_zero _)
      | cons c left =>
          rw [counts_nil, List.take_zero, List.append_nil]
          rcases stops with rfl | rfl
          · rfl
          · rfl
  | cons result earlier ih =>
      have takes' : Takes earlier := fun r member => takes r (List.mem_cons_of_mem _ member)
      cases left with
      | nil => exact absurd early (Nat.not_lt_zero _)
      | cons c left =>
          rcases takes result (List.mem_cons_self ..) with rfl | ⟨count, rfl⟩
          · rw [counts_eintr] at early ⊢
            exact ih takes' _ taken early
          · rw [counts_accepted] at early ⊢
            have rest : counts earlier < ((c :: left).drop count).length := by
              rw [List.length_drop]
              omega
            have joined : (c :: left).take (count + counts earlier) =
                (c :: left).take count ++ ((c :: left).drop count).take (counts earlier) :=
              List.take_add ..
            rw [List.cons_append, writeLoop, ih takes' _ _ rest, joined, List.append_assoc]

/-- Where the script stops the bytes accepted so far are written. -/
theorem writeLoop_stops {left : Str} {script : List WriteResult}
    (stop : StopsBefore left.length script) (taken : Str) :
    writeLoop script left taken =
      ⟨decide (stop.stop = .error), taken ++ left.take (counts stop.earlier), stop.later⟩ := by
  have split := congrArg (fun script => writeLoop script left taken) stop.split
  exact split.trans (writeLoop_until stop.takes stop.stops left taken stop.early)

/-- Everything is written, or the script stops before. -/
theorem writes_or_stops (script : List WriteResult) (left : Str) :
    (∀ taken, ∃ rest, writeLoop script left taken = ⟨false, taken ++ left, rest⟩) ∨
      Nonempty (StopsBefore left.length script) := by
  induction script generalizing left with
  | nil =>
      refine .inl fun taken => ?_
      cases left with
      | nil => exact ⟨[], by simp [writeLoop]⟩
      | cons c left => exact ⟨[], rfl⟩
  | cons result script ih =>
      cases left with
      | nil => exact .inl fun taken => ⟨result :: script, by simp [writeLoop]⟩
      | cons c left =>
          have nothing : Takes [] := takes_nil
          have positive : counts [] < (c :: left).length := Nat.succ_pos _
          cases result with
          | eagain => exact .inr ⟨⟨[], .eagain, script, rfl, nothing, .inl rfl, positive⟩⟩
          | error => exact .inr ⟨⟨[], .error, script, rfl, nothing, .inr rfl, positive⟩⟩
          | eintr =>
              rcases ih (c :: left) with all | ⟨⟨earlier, stop, later, rfl, takes, stops, early⟩⟩
              · exact .inl all
              · refine .inr ⟨⟨.eintr :: earlier, stop, later, rfl, ?_, stops, ?_⟩⟩
                · exact List.forall_mem_cons.mpr ⟨.inl rfl, takes⟩
                · rwa [counts_eintr]
          | accepted count =>
              rcases ih ((c :: left).drop count) with
                all | ⟨⟨earlier, stop, later, rfl, takes, stops, early⟩⟩
              · refine .inl fun taken => ?_
                obtain ⟨rest, wrote⟩ := all (taken ++ (c :: left).take count)
                refine ⟨rest, ?_⟩
                rw [writeLoop, wrote, List.append_assoc, List.take_append_drop]
              · refine .inr ⟨⟨.accepted count :: earlier, stop, later, rfl, ?_, stops, ?_⟩⟩
                · exact List.forall_mem_cons.mpr ⟨.inr ⟨count, rfl⟩, takes⟩
                · rw [List.length_drop] at early
                  rw [counts_accepted]
                  omega

/-! ## The buffer afterwards -/

/-- The script waits after as many bytes as the size is as an `int`, and these are not all. -/
def MissesRest (script : List WriteResult) (buffer : Str) : Prop :=
  ∃ stop : StopsBefore buffer.length script,
    stop.stop = .eagain ∧ (counts stop.earlier : ℤ) = toInt buffer.length

/-- What `writen` leaves, for a script that stops. -/
theorem writen_stops {script : List WriteResult} {buffer : Str}
    (stop : StopsBefore buffer.length script) :
    writen script buffer =
      if stop.stop = .error then ⟨-1, buffer, buffer.take (counts stop.earlier), stop.later⟩
      else if (counts stop.earlier : ℤ) = toInt buffer.length then
        ⟨counts stop.earlier, [], buffer.take (counts stop.earlier), stop.later⟩
      else
        ⟨counts stop.earlier, buffer.drop (counts stop.earlier),
          buffer.take (counts stop.earlier), stop.later⟩ := by
  have length : (buffer.take (counts stop.earlier)).length = counts stop.earlier :=
    List.length_take_of_le stop.early.le
  unfold writen
  rw [writeLoop_stops stop, List.nil_append]
  dsimp only
  rw [length]
  by_cases failed : stop.stop = .error
  · rw [if_pos failed, if_pos (decide_eq_true failed)]
  · rw [if_neg failed, if_neg (by simp [failed])]

/-- `writen` answers a negative number for a hard error alone. -/
theorem writen_fails {script : List WriteResult} {buffer : Str} :
    (writen script buffer).ret < 0 ↔ (writeLoop script buffer []).failed = true := by
  unfold writen
  dsimp only
  split
  · rename_i failed
    exact iff_of_true (Int.negSucc_lt_zero 0) failed
  · rename_i sound
    refine iff_of_false ?_ sound
    split
    · exact not_lt.mpr (Int.natCast_nonneg _)
    · exact not_lt.mpr (Int.natCast_nonneg _)

/-- **What was written and what is left are the buffer**, unless the script fails or `writen` misses
the rest. -/
theorem writen_cuts {script : List WriteResult} {buffer : Str}
    (finds : ¬ MissesRest script buffer) :
    (writen script buffer).taken <+: buffer ∧
      ((writen script buffer).ret < 0 ∨ 0 ≤ (writen script buffer).ret ∧
        (writen script buffer).taken ++ (writen script buffer).buffer = buffer) := by
  rcases writes_or_stops script buffer with all | ⟨⟨stop⟩⟩
  · obtain ⟨rest, wrote⟩ := all []
    rw [writen_all wrote]
    exact ⟨List.prefix_rfl, .inr ⟨Int.natCast_nonneg _, List.append_nil _⟩⟩
  · rw [writen_stops stop]
    split
    · exact ⟨List.take_prefix _ _, .inl (Int.negSucc_lt_zero 0)⟩
    · rename_i sound
      split
      · rename_i same
        exact absurd ⟨stop, stop.stops.resolve_right sound, same⟩ finds
      · exact ⟨List.take_prefix _ _, .inr ⟨Int.natCast_nonneg _, List.take_append_drop _ _⟩⟩

/-- **A rest that is missed is lost**: the buffer is empty, and not everything was written. -/
theorem writen_loses {script : List WriteResult} {buffer : Str}
    (misses : MissesRest script buffer) :
    0 ≤ (writen script buffer).ret ∧ (writen script buffer).buffer = [] ∧
      (writen script buffer).taken.length < buffer.length := by
  obtain ⟨stop, waits, same⟩ := misses
  have sound : stop.stop ≠ .error := by
    rw [waits]
    exact WriteResult.noConfusion
  rw [writen_stops stop, if_neg sound, if_pos same]
  refine ⟨Int.natCast_nonneg _, rfl, ?_⟩
  rw [List.length_take_of_le stop.early.le]
  exact stop.early

/-- A rest is missed only in a buffer of 4 GiB or more. -/
theorem MissesRest.long {script : List WriteResult} {buffer : Str}
    (misses : MissesRest script buffer) : 2 ^ 32 ≤ buffer.length := by
  obtain ⟨stop, -, same⟩ := misses
  have early := stop.early
  unfold toInt at same
  omega

end FastWebServer
