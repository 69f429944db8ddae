import FastWebServer.Http.LineText

/-!
# A request line that is not complete

`parse_URI` tests whether the carriage return was found with `cur < 0`, where `cur` is a
`size_t`. The test never holds, so a buffer without a carriage return is read as if it were
one request line, and it stays in the buffer: `PARSE_URI_AGAIN` is never returned.

Reading a partial line and then the whole buffer still ends as reading the whole buffer at once
does, with one exception: the version that was read of the partial line stays if the whole line
names none (`partialLine_iff`).
-/

set_option autoImplicit false

namespace FastWebServer

open Cxx

namespace HttpData

/-- A connection that has these bytes in its buffer. -/
def holding (http : HttpData) (bytes : Str) : HttpData := { http with bufferIn := bytes }

/-- A buffer is recognised as a part of a request line, and nothing is changed. -/
def KnowsPartial (http : HttpData) (bytes : Str) : Prop :=
  (http.holding bytes).parseURI = .ok (.again, http.holding bytes)

/-- A call on the first part and one after the second part has been appended end as one call on
both parts. -/
def ReadsInParts (http : HttpData) (first second : Str) : Prop :=
  ∃ state middle, (http.holding first).parseURI = .ok (state, middle) ∧
    (middle.holding (middle.bufferIn ++ second)).parseURI =
      (http.holding (first ++ second)).parseURI

/-! ## Partial lines -/

/-- A line names a method if its beginning names one. -/
theorem namedMethod_append {line more : Str} (unnamed : namedMethod (line ++ more) = none) :
    namedMethod line = none := by
  have longer : ∀ pattern : Str, found (findStr pattern line 0) = true →
      found (findStr pattern (line ++ more) 0) = true := by
    intro pattern there
    rw [findStr_append more (ne_npos_of_found there)]
    exact there
  unfold namedMethod at unnamed ⊢
  split at unnamed
  · cases unnamed
  · rename_i get
    split at unnamed
    · cases unnamed
    · rename_i post
      split at unnamed
      · cases unnamed
      · rename_i head
        rw [if_neg (mt (longer _) get), if_neg (mt (longer _) post), if_neg (mt (longer _) head)]

section PartialLine

variable {http : HttpData} {first second : Str}

/-- A buffer without a carriage return is one request line, and is not cut. -/
theorem requestLine_uncut (absent : '\r' ∉ first) (bound : first.length < npos) :
    (http.holding first).requestLine = first ∧ (http.holding first).afterLine = first := by
  have nowhere : find first '\r' (toSize http.readCur) = npos :=
    find_of_not_mem fun member => absent (List.mem_of_mem_drop member)
  refine ⟨?_, ?_⟩
  · show first.take (find first '\r' (toSize http.readCur)) = first
    rw [nowhere, List.take_of_length_le (Nat.le_of_lt bound)]
  · show first.drop (sizeAdd (find first '\r' (toSize http.readCur)) 1) = first
    rw [nowhere]
    rfl

/-- The request line of both parts begins with the first. -/
theorem requestLine_append (absent : '\r' ∉ first) (bound : (first ++ second).length < npos) :
    ∃ more, (http.holding (first ++ second)).requestLine = first ++ more := by
  have behind : first.length ≤ find (first ++ second) '\r' (toSize http.readCur) := by
    rcases find_cases (first ++ second) '\r' (toSize http.readCur) with
      ⟨none, -⟩ | ⟨inside, text, -, there⟩
    · rw [none]
      rw [List.length_append] at bound
      omega
    · by_contra early
      have early := Nat.not_le.mp early
      rw [List.drop_append_of_le_length (Nat.le_of_lt early), List.drop_eq_getElem_cons early,
        List.cons_append, List.cons.injEq] at there
      exact absent (there.1 ▸ List.getElem_mem early)
  refine ⟨second.take (find (first ++ second) '\r' (toSize http.readCur) - first.length), ?_⟩
  show (first ++ second).take (find (first ++ second) '\r' (toSize http.readCur)) = _
  rw [List.take_append, List.take_of_length_le behind]

/-- After two lines a connection holds what it holds after the second, up to the version. -/
theorem answer_again {line : Str} (named : namedMethod line = none → namedMethod first = none)
    (rest : Str) :
    answer (((http.holding first).answer first).2.holding rest) line =
        answer (http.holding rest) line ↔
      (statedVersion line).getD ((statedVersion first).getD http.httpVersion) =
        (statedVersion line).getD http.httpVersion := by
  unfold answer holding
  revert named
  generalize namedMethod line = names, namedMethod first = names', statedVersion line = version,
    statedVersion first = version'
  intro named
  simp only [Prod.mk.injEq, HttpData.mk.injEq, true_and, and_true]
  cases names with
  | some method => simp
  | none => simp [named rfl]

/-- Which bytes are the line, and which follow it, depends on the buffer alone. -/
theorem line_congr {other : HttpData} (start : other.readCur = http.readCur) (bytes : Str) :
    (other.holding bytes).requestLine = (http.holding bytes).requestLine ∧
      (other.holding bytes).afterLine = (http.holding bytes).afterLine := by
  unfold requestLine afterLine holding
  rw [start]
  exact ⟨rfl, rfl⟩

theorem parseURI_holding {bytes : Str} (bound : bytes.length < npos) :
    (http.holding bytes).parseURI = .ok
      (answer (http.holding (http.holding bytes).afterLine) (http.holding bytes).requestLine) :=
  parseURI_text bound

/-- **A partial line is taken for a whole one.** Without a carriage return in the buffer
`PARSE_URI_AGAIN` is not returned. Reading on after the rest has arrived ends as one call on
all bytes does, exactly when the whole line names a version or the first part names none that
differs from the one the connection had. -/
theorem partialLine_iff (absent : '\r' ∉ first) (bound : (first ++ second).length < npos) :
    ¬ http.KnowsPartial first ∧
      (http.ReadsInParts first second ↔ ∀ version, statedVersion first = some version →
        version ≠ http.httpVersion →
          statedVersion (http.holding (first ++ second)).requestLine ≠ none) := by
  have bound' : first.length < npos := by
    rw [List.length_append] at bound
    omega
  obtain ⟨whole, kept⟩ := @requestLine_uncut http first absent bound'
  have early : (http.holding first).parseURI = .ok ((http.holding first).answer first) := by
    rw [parseURI_holding bound', whole, kept]
  refine ⟨fun known => ?_, ?_⟩
  · rw [KnowsPartial, early] at known
    have code := congrArg Prod.fst (Except.ok.inj known)
    unfold answer at code
    dsimp only at code
    split at code <;> cases code
  · obtain ⟨more, line⟩ := @requestLine_append http first second absent bound
    have parts : http.ReadsInParts first second ↔
        (((http.holding first).answer first).2.holding (first ++ second)).parseURI =
          (http.holding (first ++ second)).parseURI := by
      refine ⟨?_, fun same => ⟨_, _, early, same⟩⟩
      rintro ⟨state, middle, ran, same⟩
      obtain ⟨rfl, rfl⟩ := Prod.mk.inj (Except.ok.inj (early.symm.trans ran))
      exact same
    obtain ⟨same, left⟩ := @line_congr http ((http.holding first).answer first).2 rfl
      (first ++ second)
    rw [parts, parseURI_holding bound, parseURI_holding bound, same, left, Except.ok.injEq]
    refine (answer_again (fun unnamed => ?_) _).trans ?_
    · rw [line] at unnamed
      exact namedMethod_append unnamed
    · generalize statedVersion (http.holding (first ++ second)).requestLine = version,
        statedVersion first = version'
      cases version with
      | some stated => simp
      | none =>
          cases version' with
          | none => simp
          | some stated => simp

end PartialLine

/-- Part of a request line is read to its end, and then all of it. -/
theorem partialHello_read :
    ¬ (HttpData.new 5).KnowsPartial "GET /hel".toList ∧
      (HttpData.new 5).ReadsInParts "GET /hel".toList "lo HTTP/1.1\r\n".toList := by
  have unversioned : statedVersion "GET /hel".toList = none := by decide +kernel
  obtain ⟨unknown, inParts⟩ := @partialLine_iff (HttpData.new 5) "GET /hel".toList
    "lo HTTP/1.1\r\n".toList (by decide) (by decide)
  refine ⟨unknown, inParts.mpr fun version stated => ?_⟩
  rw [unversioned] at stated
  cases stated

/-- **Part of a request line is refused**, although the rest of it may follow. -/
theorem partialHello_refused :
    '\r' ∉ "GET /hel".toList ∧
      (∃ after, ((HttpData.new 5).holding "GET /hel".toList).parseURI = .ok (.error, after)) ∧
      ¬ (HttpData.new 5).KnowsPartial "GET /hel".toList := by
  have refused : lineRead ((HttpData.new 5).holding "GET /hel".toList) =
      .ok (.error, "hel".toList, .get) := by decide +kernel
  obtain ⟨after, ran, -⟩ := exists_of_lineRead refused
  refine ⟨by decide, ⟨after, ran⟩, fun known => ?_⟩
  unfold KnowsPartial at known
  cases ran.symm.trans known

end HttpData

end FastWebServer
