import FastWebServer.Http.LineText

/-!
# A parser that knows what it did not find

The algorithm of `parse_URI` with optional positions: where a search finds nothing, the branch
is taken that the source writes as `cur < 0`. In the source that branch is dead, and `npos`
goes on into the arithmetic (`referenceTarget_text` against `parseTarget_text`).

The two parsers part on lines that name a method and have no version behind their target
(`parseURI_reference_iff`): without a slash such a line is a request for `index.html` here and
an error there, unless it begins with `1.1`; with a slash it is an error here, and there too
unless it begins with a version.
-/

set_option autoImplicit false

namespace FastWebServer

open Cxx

namespace HttpData

/-! ## The reference parser -/

/-- The version behind the next slash from `cur` on. -/
def referenceVersion (http : HttpData) (requestLine : Str) (cur : ℕ) : URIState × HttpData :=
  match findOpt requestLine '/' cur with
  | none => (.error, http)
  | some cur =>
      if requestLine.length - cur ≤ 3 then (.error, http)
      else
        let version := (requestLine.drop (cur + 1)).take 3
        if version = "1.0".toList then (.success, { http with httpVersion := .http10 })
        else if version = "1.1".toList then (.success, { http with httpVersion := .http11 })
        else (.error, http)

/-- The target between the slash at `cur` and the space at `cur'`, up to its first question
mark. -/
def referenceFileName (requestLine : Str) (cur cur' : ℕ) : Str :=
  if 1 < cur' - cur then
    let target := (requestLine.drop (cur + 1)).take (cur' - cur - 1)
    match findOpt target '?' 0 with
    | none => target
    | some mark => target.take mark
  else "index.html".toList

/-- The target, which is read after the first slash from `cur` on. -/
def referenceTarget (http : HttpData) (requestLine : Str) (cur : ℕ) : URIState × HttpData :=
  match findOpt requestLine '/' cur with
  | none => (.success, { http with fileName := "index.html".toList, httpVersion := .http11 })
  | some cur =>
      match findOpt requestLine ' ' cur with
      | none => (.error, http)
      | some cur' =>
          referenceVersion { http with fileName := referenceFileName requestLine cur cur' }
            requestLine cur'

/-- The method, and what is read after it. -/
def referenceRequestLine (http : HttpData) (requestLine : Str) : URIState × HttpData :=
  match findStrOpt "GET".toList requestLine 0 with
  | some cur => referenceTarget { http with httpMethod := .get } requestLine cur
  | none =>
      match findStrOpt "POST".toList requestLine 0 with
      | some cur => referenceTarget { http with httpMethod := .post } requestLine cur
      | none =>
          match findStrOpt "HEAD".toList requestLine 0 with
          | some cur => referenceTarget { http with httpMethod := .head } requestLine cur
          | none => (.error, http)

/-- `parse_URI` with optional positions. -/
def referenceURI (http : HttpData) : URIState × HttpData :=
  match findOpt http.bufferIn '\r' http.readCur.toNat with
  | none => (.again, http)
  | some cur =>
      referenceRequestLine { http with bufferIn := http.bufferIn.drop (cur + 1) }
        (http.bufferIn.take cur)

/-! ## Where every search finds something -/

section Found

variable {http : HttpData} {line : Str} {cur cur' : ℕ}

/-- Between two positions that were found the name is cut out alike. -/
theorem parseFileName_reference (bound : line.length < npos) (le : cur ≤ cur')
    (inside : cur' < line.length) :
    parseFileName line cur cur' = .ok (referenceFileName line cur cur') := by
  have limit : line.length < 2 ^ 64 - 1 := bound
  have next : sizeAdd cur 1 = cur + 1 := Nat.mod_eq_of_lt (by omega)
  unfold parseFileName referenceFileName
  rw [sizeSub_of_le le (by omega)]
  by_cases wide : 1 < cur' - cur
  · rw [if_pos wide, if_pos wide, sizeSub_of_le (by omega) (by omega), next, substr,
      if_pos (by omega)]
    simp only [find_eq_getD, substr, if_pos (Nat.zero_le _), List.drop_zero]
    cases mark : findOpt ((line.drop (cur + 1)).take (cur' - cur - 1)) '?' 0 with
    | some position => rfl
    | none =>
        refine congrArg Except.ok (List.take_of_length_le ?_)
        rw [List.length_take, List.length_drop]
        show _ ≤ npos
        omega
  · rw [if_neg wide, if_neg wide]

/-- Behind a slash that was found the version is read alike. -/
theorem parseVersion_reference (bound : line.length < npos)
    (found : findOpt line '/' cur ≠ none) :
    http.parseVersion line cur = .ok (http.referenceVersion line cur) := by
  have limit : line.length < 2 ^ 64 - 1 := bound
  rcases findOpt_cases line '/' cur with ⟨none, -⟩ | ⟨position, text, there, -, inside, -⟩
  · exact absurd none found
  · have next : sizeAdd position 1 = position + 1 := Nat.mod_eq_of_lt (by omega)
    unfold parseVersion referenceVersion
    rw [find_eq_getD, there]
    simp only [Nat.not_lt_zero, if_false, Option.getD_some, next,
      sizeSub_of_le (Nat.le_of_lt inside) (by omega : line.length < 2 ^ 64), substr,
      if_pos (Nat.succ_le_of_lt inside)]
    split
    · rfl
    · split
      · rfl
      · split <;> rfl

end Found

/-! ## Where a search finds nothing -/

theorem targetText_of_absent {line : Str} {start : ℕ} (absent : '/' ∉ line.drop start) :
    targetText line start = "index.html".toList := by
  rw [targetText, dropWhile_ne_of_not_mem absent]

/-- **The reference against the text of the line.** With a slash for the version both parsers do
the same. Without one the reference fails, or answers `index.html` if there is no slash at
all. -/
theorem referenceTarget_cases (http : HttpData) {line : Str} (start : ℕ)
    (bound : line.length < npos) :
    versionSlash line start ≠ [] ∧
        http.parseTarget line start = .ok (http.referenceTarget line start) ∨
      versionSlash line start = [] ∧ '/' ∈ line.drop start ∧
        (http.referenceTarget line start).1 = .error ∨
      versionSlash line start = [] ∧ '/' ∉ line.drop start ∧
        http.referenceTarget line start =
          (.success, { http with fileName := "index.html".toList, httpVersion := .http11 }) := by
  unfold versionSlash referenceTarget
  rcases findOpt_cases line '/' start with ⟨none, absent⟩ | ⟨cur, text, there, -, inside, slash, rest⟩
  · rw [none, dropWhile_ne_of_not_mem absent]
    exact .inr (.inr ⟨rfl, absent, rfl⟩)
  · have member : '/' ∈ line.drop start := by
      apply (List.dropWhile_suffix (· ≠ '/')).subset
      rw [slash]
      exact List.mem_cons_self ..
    simp only [there]
    rw [slash, ← rest]
    rcases findOpt_cases line ' ' cur with
      ⟨none, absent⟩ | ⟨cur', text', there', le, inside', space, rest'⟩
    · rw [none, dropWhile_ne_of_not_mem absent]
      exact .inr (.inl ⟨rfl, member, rfl⟩)
    · simp only [there']
      rw [space, ← rest']
      rcases findOpt_cases line '/' cur' with
        ⟨none, absent⟩ | ⟨last, text'', found, -, -, slash', -⟩
      · refine .inr (.inl ⟨dropWhile_ne_of_not_mem absent, member, ?_⟩)
        unfold referenceVersion
        rw [none]
      · refine .inl ⟨by rw [slash']; exact List.cons_ne_nil _ _, ?_⟩
        have here : find line '/' start = cur := by rw [find_eq_getD, there, Option.getD_some]
        have next : find line ' ' cur = cur' := by rw [find_eq_getD, there', Option.getD_some]
        unfold parseTarget
        simp only [Nat.not_lt_zero, if_false, here, next, parseFileName_reference bound le inside']
        exact parseVersion_reference bound (by rw [found]; exact Option.some_ne_none _)

/-! ## The method -/

/-- A pattern of the line is found, at the same position, by both kinds of search. -/
theorem found_iff {pattern line : Str} (bound : line.length < 2 ^ 31) (nonempty : pattern ≠ []) :
    match findStrOpt pattern line 0 with
    | none => found (findStr pattern line 0) = false
    | some cur => found (findStr pattern line 0) = true ∧
        toSize (toInt (findStr pattern line 0)) = cur := by
  rw [findStr_eq_getD]
  cases there : findStrOpt pattern line 0 with
  | none => exact (by decide : found npos = false)
  | some cur =>
      have inside := lt_of_findStrOpt nonempty there
      have position : toInt cur = cur := toInt_of_lt (by omega)
      show found cur = true ∧ toSize (toInt cur) = cur
      rw [found, position]
      exact ⟨by simp, toSize_natCast (by omega)⟩

/-- The reference finds the method that the line names. -/
theorem referenceRequestLine_eq (http : HttpData) {line : Str} (bound : line.length < 2 ^ 31) :
    http.referenceRequestLine line =
      match namedMethod line with
      | none => (.error, http)
      | some (method, start) => referenceTarget { http with httpMethod := method } line start := by
  have get := @found_iff "GET".toList line bound (by decide)
  have post := @found_iff "POST".toList line bound (by decide)
  have head := @found_iff "HEAD".toList line bound (by decide)
  unfold referenceRequestLine
  cases getAt : findStrOpt "GET".toList line 0 with
  | some cur =>
      rw [getAt] at get
      have named : namedMethod line = some (.get, cur) := by
        rw [namedMethod, if_pos get.1, get.2]
      rw [named]
  | none =>
      rw [getAt] at get
      have noGet : ¬ found (findStr "GET".toList line 0) = true := Bool.eq_false_iff.mp get
      cases postAt : findStrOpt "POST".toList line 0 with
      | some cur =>
          rw [postAt] at post
          have named : namedMethod line = some (.post, cur) := by
            rw [namedMethod, if_neg noGet, if_pos post.1, post.2]
          rw [named]
      | none =>
          rw [postAt] at post
          have noPost : ¬ found (findStr "POST".toList line 0) = true := Bool.eq_false_iff.mp post
          cases headAt : findStrOpt "HEAD".toList line 0 with
          | some cur =>
              rw [headAt] at head
              have named : namedMethod line = some (.head, cur) := by
                rw [namedMethod, if_neg noGet, if_neg noPost, if_pos head.1, head.2]
              rw [named]
          | none =>
              rw [headAt] at head
              have noHead : ¬ found (findStr "HEAD".toList line 0) = true :=
                Bool.eq_false_iff.mp head
              have unnamed : namedMethod line = none := by
                rw [namedMethod, if_neg noGet, if_neg noPost, if_neg noHead]
              rw [unnamed]

/-! ## Agreement -/

/-- Two answers agree: in the code, and on success in the request. -/
def Agree (answer reference : URIState × HttpData) : Prop :=
  answer.1 = reference.1 ∧ (answer.1 = .success → SameRequest answer.2 reference.2)

/-- From here on the line has a slash for the version, or it is read alike without: it does not
begin with a version, or it has no slash at all and begins with `1.1`. -/
def ReadAlikeFrom (line : Str) (start : ℕ) : Prop :=
  versionSlash line start = [] →
    if '/' ∈ line.drop start then line.take 3 ≠ "1.0".toList ∧ line.take 3 ≠ "1.1".toList
    else line.take 3 = "1.1".toList

/-- A line that names no method, or is read alike from its method on. -/
def ReadAlike (line : Str) : Prop :=
  ∀ named, namedMethod line = some named → ReadAlikeFrom line named.2

/-- A text that is read as a version, against an answer that is an error. -/
theorem agree_error_iff {http : HttpData} {text : Str} {reference : URIState × HttpData}
    (failed : reference.1 = .error) :
    Agree (versionAnswer http text) reference ↔ text ≠ "1.0".toList ∧ text ≠ "1.1".toList := by
  unfold Agree versionAnswer versionOf
  rw [failed]
  by_cases old : text = "1.0".toList
  · rw [if_pos old]
    exact iff_of_false (fun same => by cases same.1) fun none => none.1 old
  · rw [if_neg old]
    by_cases new : text = "1.1".toList
    · rw [if_pos new]
      exact iff_of_false (fun same => by cases same.1) fun none => none.2 new
    · rw [if_neg new]
      exact iff_of_true ⟨rfl, fun accepted => by cases accepted⟩ ⟨old, new⟩

/-- A text that is read as a version, against an answer of version 1.1. -/
theorem agree_http11_iff {http : HttpData} {text : Str} :
    Agree (versionAnswer http text) (.success, { http with httpVersion := .http11 }) ↔
      text = "1.1".toList := by
  unfold Agree versionAnswer versionOf
  by_cases old : text = "1.0".toList
  · rw [if_pos old]
    refine iff_of_false (fun same => ?_) (fun new => absurd (old.symm.trans new) (by decide))
    cases (same.2 rfl).httpVersion
  · rw [if_neg old]
    by_cases new : text = "1.1".toList
    · rw [if_pos new]
      exact iff_of_true ⟨rfl, fun _ => ⟨rfl, rfl, rfl⟩⟩ new
    · rw [if_neg new]
      exact iff_of_false (fun same => by cases same.1) new

/-- **When the two parsers read a line alike.** -/
theorem answer_reference_iff (http : HttpData) {line : Str} (bound : line.length < 2 ^ 31) :
    Agree (http.answer line) (http.referenceRequestLine line) ↔ ReadAlike line := by
  have fits : line.length < npos := lt_trans bound (by decide)
  rw [referenceRequestLine_eq http bound]
  unfold ReadAlike
  cases names : namedMethod line with
  | none =>
      rw [answer_of_none names]
      exact iff_of_true ⟨rfl, fun failed => by cases failed⟩ fun named names => by cases names
  | some named =>
      obtain ⟨method, start⟩ := named
      rw [answer_of_some names]
      show Agree _ (referenceTarget { http with httpMethod := method } line start) ↔ _
      have alike : (∀ named, some (method, start) = some named → ReadAlikeFrom line named.2) ↔
          ReadAlikeFrom line start := by
        refine ⟨fun all => all _ rfl, ?_⟩
        rintro one named same
        cases same
        exact one
      rw [alike, ReadAlikeFrom]
      rcases referenceTarget_cases { http with httpMethod := method } start fits with
        ⟨slash, same⟩ | ⟨none, member, failed⟩ | ⟨none, absent, answered⟩
      · rw [parseTarget_text _ _ fits (long_of_namedMethod names)] at same
        rw [← Except.ok.inj same]
        exact iff_of_true ⟨rfl, fun _ => ⟨rfl, rfl, rfl⟩⟩ fun none => absurd none slash
      · have text : versionText line start = line.take 3 := by rw [versionText, none]
        rw [text, agree_error_iff failed, if_pos member]
        exact ⟨fun same _ => same, fun same => same none⟩
      · have text : versionText line start = line.take 3 := by rw [versionText, none]
        rw [text, answered, targetText_of_absent absent, if_neg absent]
        refine agree_http11_iff.trans ?_
        exact ⟨fun same _ => same, fun same => same none⟩

/-- The reference cuts the line off as `parse_URI` does. -/
theorem referenceURI_line {http : HttpData} {line rest : Str} (start : http.readCur = 0)
    (buffer : http.bufferIn = line ++ '\r' :: rest) (absent : '\r' ∉ line) :
    http.referenceURI = referenceRequestLine { http with bufferIn := rest } line := by
  have position : findOpt http.bufferIn '\r' http.readCur.toNat = some line.length := by
    rw [start, buffer, findOpt]
    simp [List.findIdx?_append, findIdx?_of_not_mem absent, List.findIdx?_cons]
  have behind : http.bufferIn.drop (line.length + 1) = rest := by
    rw [buffer, ← List.drop_drop, List.drop_left, List.drop_one, List.tail_cons]
  unfold referenceURI
  rw [position]
  show referenceRequestLine { http with bufferIn := http.bufferIn.drop (line.length + 1) }
    (http.bufferIn.take line.length) = _
  rw [behind, buffer, List.take_left]

/-- **`parse_URI` agrees with the reference exactly on the lines that are read alike.** -/
theorem parseURI_reference_iff {http : HttpData} {line rest : Str} (start : http.readCur = 0)
    (buffer : http.bufferIn = line ++ '\r' :: rest) (absent : '\r' ∉ line)
    (bound : line.length < 2 ^ 31) :
    (∃ read, http.parseURI = .ok read ∧ Agree read http.referenceURI) ↔ ReadAlike line := by
  rw [parseURI_line start buffer absent (by omega),
    parseRequestLine_text _ (lt_trans bound (by decide)), referenceURI_line start buffer absent,
    ← answer_reference_iff { http with bufferIn := rest } bound]
  refine ⟨?_, fun same => ⟨_, rfl, same⟩⟩
  rintro ⟨read, ran, same⟩
  rw [Except.ok.inj ran]
  exact same

/-- A plain request line is read alike. -/
theorem plainLine_reference :
    ∃ read, (received "GET /a.txt HTTP/1.1\r\n".toList).parseURI = .ok read ∧
      Agree read (received "GET /a.txt HTTP/1.1\r\n".toList).referenceURI := by
  have get : namedMethod "GET /a.txt HTTP/1.1".toList = some (.get, 0) := by decide +kernel
  have slash : versionSlash "GET /a.txt HTTP/1.1".toList 0 ≠ [] := by decide
  refine (@parseURI_reference_iff (received "GET /a.txt HTTP/1.1\r\n".toList)
    "GET /a.txt HTTP/1.1".toList "\n".toList rfl rfl (by decide) (by decide)).mpr ?_
  intro named names
  rw [get] at names
  cases names
  exact fun none => absurd none slash

/-- **A line of a method alone** is a request for `index.html` to the reference, and an error to
`parse_URI`. -/
theorem bareGet_differs :
    (∃ after, (received "GET\r\n".toList).parseURI = .ok (.error, after)) ∧
      (received "GET\r\n".toList).referenceURI.1 = .success ∧
      ¬ ∃ read, (received "GET\r\n".toList).parseURI = .ok read ∧
        Agree read (received "GET\r\n".toList).referenceURI := by
  have refused : lineRead (received "GET\r\n".toList) = .ok (.error, "index.html".toList, .get) := by
    decide +kernel
  have served : (received "GET\r\n".toList).referenceURI.1 = .success := by decide +kernel
  obtain ⟨after, ran, -⟩ := exists_of_lineRead refused
  refine ⟨⟨after, ran⟩, served, ?_⟩
  rintro ⟨read, ran', same⟩
  cases ran.symm.trans ran'
  cases same.1.trans served

end HttpData

end FastWebServer
