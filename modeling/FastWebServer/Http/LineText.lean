import FastWebServer.Http.DocumentRoot

/-!
# What a request line says

`parse_URI` as a function of the text of the line. Each search moves on to the next
occurrence of a character, so what it leaves is the text from there on. A search that finds
nothing leaves position `npos`, at which no further search finds anything either. But the
version is then read three characters from position `npos + 1`, which is position `0`:
`versionText` is the beginning of the line there.

`parseURI_text` says that `parse_URI` answers what the text says (`answer`), for every
connection and every buffer. In particular no `substr` of it starts behind the end of its
string (`parseURI_local`), and what comes after the line decides nothing.
-/

set_option autoImplicit false

namespace FastWebServer

open Cxx

namespace HttpData

/-! ## The text of a line -/

/-- The method that a line names, and the position after which the target is looked for. -/
def namedMethod (line : Str) : Option (HttpMethod × ℕ) :=
  if found (findStr "GET".toList line 0) then
    some (.get, toSize (toInt (findStr "GET".toList line 0)))
  else if found (findStr "POST".toList line 0) then
    some (.post, toSize (toInt (findStr "POST".toList line 0)))
  else if found (findStr "HEAD".toList line 0) then
    some (.head, toSize (toInt (findStr "HEAD".toList line 0)))
  else none

/-- The text from the version's slash on: the first slash behind the first space behind the
first slash from `start` on. -/
def versionSlash (line : Str) (start : ℕ) : Str :=
  (((line.drop start).dropWhile (· ≠ '/')).dropWhile (· ≠ ' ')).dropWhile (· ≠ '/')

/-- The three characters that are compared with the versions. -/
def versionText (line : Str) (start : ℕ) : Str :=
  match versionSlash line start with
  | [] => line.take 3
  | _ :: text => text.take 3

/-- The version that a text names. -/
def versionOf (text : Str) : Option HttpVersion :=
  if text = "1.0".toList then some .http10
  else if text = "1.1".toList then some .http11
  else none

/-- The version that a line names. -/
def statedVersion (line : Str) : Option HttpVersion :=
  (namedMethod line).bind fun named => versionOf (versionText line named.2)

/-- **What a line says, and the members it sets.** It is accepted exactly when it names a
version, and a line without a method sets nothing. -/
def answer (http : HttpData) (line : Str) : URIState × HttpData :=
  (if (statedVersion line).isSome then .success else .error, { http with
    httpMethod := ((namedMethod line).map Prod.fst).getD http.httpMethod
    fileName := ((namedMethod line).map fun named => targetText line named.2).getD http.fileName
    httpVersion := (statedVersion line).getD http.httpVersion })

/-- What a text says as a version, and the member it sets. -/
def versionAnswer (http : HttpData) (text : Str) : URIState × HttpData :=
  (if (versionOf text).isSome then .success else .error,
    { http with httpVersion := (versionOf text).getD http.httpVersion })

theorem statedVersion_of_some {line : Str} {named : HttpMethod × ℕ}
    (names : namedMethod line = some named) :
    statedVersion line = versionOf (versionText line named.2) := by
  rw [statedVersion, names, Option.bind_some]

theorem statedVersion_of_none {line : Str} (unnamed : namedMethod line = none) :
    statedVersion line = none := by
  rw [statedVersion, unnamed, Option.bind_none]

theorem answer_of_some {http : HttpData} {line : Str} {method : HttpMethod} {start : ℕ}
    (names : namedMethod line = some (method, start)) :
    http.answer line = versionAnswer
      { http with httpMethod := method, fileName := targetText line start }
      (versionText line start) := by
  rw [answer, statedVersion_of_some names, names, versionAnswer]
  rfl

theorem answer_of_none {http : HttpData} {line : Str} (unnamed : namedMethod line = none) :
    http.answer line = (.error, http) := by
  rw [answer, statedVersion_of_none unnamed, unnamed]
  rfl

theorem versionOf_short {text : Str} (short : text.length < 3) : versionOf text = none := by
  unfold versionOf
  rw [if_neg, if_neg]
  · rintro rfl
    exact absurd short (by decide)
  · rintro rfl
    exact absurd short (by decide)

/-! ## The searches of parse_URI -/

theorem ne_npos_of_found {position : ℕ} (there : found position = true) : position ≠ npos := by
  rintro rfl
  exact absurd there (by decide)

/-- A line that names a method has its three characters. -/
theorem long_of_namedMethod {line : Str} {named : HttpMethod × ℕ}
    (names : namedMethod line = some named) : 3 ≤ line.length := by
  unfold namedMethod at names
  split at names
  · rename_i get
    exact length_le_of_findStr (ne_npos_of_found get)
  · split at names
    · rename_i post
      have four := length_le_of_findStr (ne_npos_of_found post)
      exact le_trans (by decide) four
    · split at names
      · rename_i head
        have four := length_le_of_findStr (ne_npos_of_found head)
        exact le_trans (by decide) four
      · cases names

/-- **The version is read behind a slash**, and at the beginning of the line where there is
none. -/
theorem parseVersion_text (http : HttpData) {line : Str} (cur : ℕ) (bound : line.length < npos)
    (long : 3 ≤ line.length) :
    http.parseVersion line cur = .ok (versionAnswer http
      (match (line.drop cur).dropWhile (· ≠ '/') with
        | [] => line.take 3
        | _ :: text => text.take 3)) := by
  have read : ∀ text : Str,
      (if text = "1.0".toList then
          .ok (.success, { http with httpVersion := .http10 })
        else if text = "1.1".toList then
          .ok (.success, { http with httpVersion := .http11 })
        else .ok (.error, http) : Except Fault (URIState × HttpData)) =
      .ok (versionAnswer http text) := by
    intro text
    unfold versionAnswer versionOf
    split
    · rfl
    · split <;> rfl
  have limit : line.length < 2 ^ 64 - 1 := bound
  unfold parseVersion
  simp only [Nat.not_lt_zero, if_false]
  rcases find_cases line '/' cur with ⟨none, empty⟩ | ⟨inside, text, slash, there⟩
  · -- `npos + 1` is the beginning of the line
    have wide : ¬ sizeSub line.length npos ≤ 3 := by
      unfold sizeSub npos
      omega
    have wrapped : sizeAdd npos 1 = 0 := by decide
    rw [none, empty, if_neg wide, wrapped, substr, if_pos (Nat.zero_le _), List.drop_zero]
    exact read (line.take 3)
  · have length := congrArg List.length there
    rw [List.length_drop, List.length_cons] at length
    rw [slash, sizeSub_of_le (Nat.le_of_lt inside) (by omega)]
    by_cases short : line.length - find line '/' cur ≤ 3
    · have none : versionOf (text.take 3) = none := by
        apply versionOf_short
        rw [List.length_take]
        omega
      rw [if_pos short, versionAnswer, none]
      rfl
    · have behind : line.drop (find line '/' cur + 1) = text := by
        rw [← List.drop_drop, there, List.drop_one, List.tail_cons]
      rw [if_neg short, substr_behind bound inside behind]
      exact read (text.take 3)

/-- The target and the version, as the text of the line says. -/
theorem parseTarget_text (http : HttpData) {line : Str} (start : ℕ) (bound : line.length < npos)
    (long : 3 ≤ line.length) :
    http.parseTarget line start = .ok (versionAnswer
      { http with fileName := targetText line start } (versionText line start)) := by
  unfold parseTarget
  simp only [Nat.not_lt_zero, if_false, parseFileName_text start bound]
  rw [parseVersion_text _ _ bound long, drop_find ' ' _ bound, drop_find '/' _ bound]
  rfl

/-- **The request line is read as its text says.** -/
theorem parseRequestLine_text (http : HttpData) {line : Str} (bound : line.length < npos) :
    http.parseRequestLine line = .ok (http.answer line) := by
  have reads : ∀ method start, namedMethod line = some (method, start) →
      parseTarget { http with httpMethod := method } line start = .ok (http.answer line) := by
    intro method start names
    rw [parseTarget_text _ _ bound (long_of_namedMethod names), answer_of_some names]
  unfold parseRequestLine
  dsimp only
  by_cases get : found (findStr "GET".toList line 0)
  · rw [if_pos get]
    apply reads
    rw [namedMethod, if_pos get]
  · rw [if_neg get]
    by_cases post : found (findStr "POST".toList line 0)
    · rw [if_pos post]
      apply reads
      rw [namedMethod, if_neg get, if_pos post]
    · rw [if_neg post]
      by_cases head : found (findStr "HEAD".toList line 0)
      · rw [if_pos head]
        apply reads
        rw [namedMethod, if_neg get, if_neg post, if_pos head]
      · rw [if_neg head, answer_of_none]
        rw [namedMethod, if_neg get, if_neg post, if_neg head]

/-! ## The line and what follows it -/

/-- The buffer without the request line: what follows its carriage return, or the same buffer
where there is none. -/
def afterLine (http : HttpData) : Str :=
  http.bufferIn.drop (sizeAdd (find http.bufferIn '\r' (toSize http.readCur)) 1)

theorem afterRequestLine_eq (bufferIn : Str) (cur : ℕ) :
    afterRequestLine bufferIn cur = .ok (bufferIn.drop (sizeAdd cur 1)) := by
  unfold afterRequestLine
  split
  · rename_i inside
    exact substrFrom_of_le (Nat.le_of_lt inside)
  · rename_i outside
    rw [List.drop_eq_nil_of_le (Nat.not_lt.mp outside)]

/-- **`parse_URI` answers what the text of the line says.** -/
theorem parseURI_text {http : HttpData} (bound : http.bufferIn.length < npos) :
    http.parseURI =
      .ok (answer { http with bufferIn := http.afterLine } http.requestLine) := by
  unfold parseURI
  simp only [Nat.not_lt_zero, if_false, substr, Nat.zero_le, if_true, List.drop_zero,
    afterRequestLine_eq]
  exact parseRequestLine_text _ (lt_of_le_of_lt (List.length_take_le' _ _) bound)

theorem bufferIn_split {http : HttpData} {line rest : Str} (start : http.readCur = 0)
    (buffer : http.bufferIn = line ++ '\r' :: rest) (absent : '\r' ∉ line)
    (bound : line.length + 1 < 2 ^ 64) :
    http.requestLine = line ∧ http.afterLine = rest := by
  have position : find http.bufferIn '\r' (toSize http.readCur) = line.length := by
    rw [start, buffer]
    exact find_zero_append absent
  have next : sizeAdd line.length 1 = line.length + 1 := Nat.mod_eq_of_lt bound
  refine ⟨?_, ?_⟩
  · rw [requestLine, position, buffer, List.take_left]
  · rw [afterLine, position, next, buffer, ← List.drop_drop, List.drop_left, List.drop_one,
      List.tail_cons]

/-! ## The same line on another connection -/

/-- Two connections hold the same method, version and file name. -/
structure SameRequest (http other : HttpData) : Prop where
  httpMethod : http.httpMethod = other.httpMethod
  httpVersion : http.httpVersion = other.httpVersion
  fileName : http.fileName = other.fileName

/-- An accepted line leaves nothing of what the connection held before. -/
theorem answer_sameRequest (http other : HttpData) (line : Str) :
    (http.answer line).1 = (other.answer line).1 ∧
      ((http.answer line).1 = .success ∨ SameRequest http other →
        SameRequest (http.answer line).2 (other.answer line).2) := by
  refine ⟨rfl, ?_⟩
  rintro (accepted | same)
  · cases names : namedMethod line with
    | none =>
        rw [answer_of_none names] at accepted
        cases accepted
    | some named =>
        obtain ⟨method, start⟩ := named
        rw [answer_of_some names] at accepted ⊢
        rw [answer_of_some names]
        unfold versionAnswer at accepted ⊢
        cases version : versionOf (versionText line start) with
        | none => simp [version] at accepted
        | some stated => exact ⟨rfl, rfl, rfl⟩
  · refine ⟨?_, ?_, ?_⟩
    · simp only [answer, same.httpMethod]
    · simp only [answer, same.httpVersion]
    · simp only [answer, same.fileName]

/-- **`parse_URI` reads the request line alone, and always returns.** No `substr` of it starts
behind the end of its string. Where a carriage return ends the line, what follows it is left in
the buffer on every path, and the answer and what is stored are those of any other connection
with the same line: of one that held the same before, or of any one if the line is accepted. -/
theorem parseURI_local {http : HttpData} (bound : http.bufferIn.length < 2 ^ 31) :
    ∃ state after, http.parseURI = .ok (state, after) ∧
      ∀ line rest, http.readCur = 0 → http.bufferIn = line ++ '\r' :: rest → '\r' ∉ line →
        after.bufferIn = rest ∧
        ∀ (other : HttpData) rest', other.readCur = 0 → other.bufferIn = line ++ '\r' :: rest' →
          other.bufferIn.length < 2 ^ 31 →
          ∃ after', other.parseURI = .ok (state, after') ∧ after'.bufferIn = rest' ∧
            (state = .success ∨ SameRequest http other → SameRequest after after') := by
  have fits : ∀ {http : HttpData}, http.bufferIn.length < 2 ^ 31 → http.bufferIn.length < npos :=
    fun short => lt_of_lt_of_le short (by decide)
  refine ⟨(answer { http with bufferIn := http.afterLine } http.requestLine).1,
    (answer { http with bufferIn := http.afterLine } http.requestLine).2,
    by rw [Prod.mk.eta, parseURI_text (fits bound)], ?_⟩
  intro line rest start buffer absent
  have short : line.length + 1 < 2 ^ 64 := by
    rw [buffer, List.length_append] at bound
    omega
  obtain ⟨same, left⟩ := bufferIn_split start buffer absent short
  rw [same, left]
  refine ⟨rfl, ?_⟩
  intro other rest' start' buffer' bound'
  obtain ⟨same', left'⟩ := bufferIn_split start' buffer' absent short
  obtain ⟨code, held⟩ := answer_sameRequest { http with bufferIn := rest }
    { other with bufferIn := rest' } line
  refine ⟨(answer { other with bufferIn := rest' } line).2, ?_, rfl, ?_⟩
  · rw [parseURI_text (fits bound'), same', left', code]
  · rintro (accepted | same)
    · exact held (.inl accepted)
    · exact held (.inr ⟨same.httpMethod, same.httpVersion, same.fileName⟩)

/-- The line of a plain request is read alone. -/
theorem plainLine_local :
    ∃ state after, (received "GET /a.txt HTTP/1.1\r\n\r\n".toList).parseURI = .ok (state, after) ∧
      after.bufferIn = "\n\r\n".toList := by
  obtain ⟨state, after, ran, alone⟩ :=
    @parseURI_local (received "GET /a.txt HTTP/1.1\r\n\r\n".toList) (by decide)
  exact ⟨state, after, ran, (alone "GET /a.txt HTTP/1.1".toList "\n\r\n".toList rfl rfl (by decide)).1⟩

end HttpData

end FastWebServer
