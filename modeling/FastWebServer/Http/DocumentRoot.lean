import FastWebServer.Http.ReadEffects

/-!
# The files a request can name

The name of a file reaches `stat` and `open` as it stands on the request line: the
text behind the first slash after the method, up to the next space, without what a
question mark starts, and as far as a zero byte. Nothing in between looks at what
the text says. So a path leaves the working directory exactly when the text does
(`systemPaths_unfiltered`).

The searches of `parse_URI` are followed with their wrapping positions, where a
missing slash or space is position `npos` and takes part in the arithmetic
(`parseTarget_fileName`).
-/

set_option autoImplicit false

namespace FastWebServer

open Cxx

namespace HttpData

/-! ## The paths of an analysis -/

/-- The paths that `analyze_request` passes to `stat` and `open`, in order. -/
def systemPaths (files : FileSystem) (http : HttpData) : List Str :=
  match http.httpMethod with
  | .post => []
  | .get | .head =>
      if http.fileName = "hello".toList then []
      else if http.fileName = "favicon.ico".toList then []
      else
        match files.stat (cStr http.fileName) with
        | none => [cStr http.fileName]
        | some _ =>
            if http.httpMethod = .head then [cStr http.fileName]
            else [cStr http.fileName, cStr http.fileName]

/-- Every path is the name of the request. -/
theorem eq_of_mem_systemPaths {files : FileSystem} {http : HttpData} {path : Str}
    (asked : path ∈ http.systemPaths files) : path = cStr http.fileName := by
  unfold systemPaths at asked
  cases asks : http.httpMethod with
  | post => simp [asks] at asked
  | get | head =>
      simp only [asks] at asked
      split at asked
      · cases asked
      · split at asked
        · cases asked
        · cases stat : files.stat (cStr http.fileName) with
          | none | some => simpa [stat] using asked

/-- Two file systems hold the same at a path. -/
structure SameAt (files files' : FileSystem) (path : Str) : Prop where
  stat : files'.stat path = files.stat path
  openRead : files'.openRead path = files.openRead path
  mmap : files'.mmap path = files.mmap path

/-- **No other path matters**: the analysis is the same over any file system that
holds the same at the paths asked for. -/
theorem analyzeRequest_congr {files files' : FileSystem} {http : HttpData}
    (same : ∀ path ∈ http.systemPaths files, SameAt files files' path) :
    http.analyzeRequest files' = http.analyzeRequest files := by
  have served : http.httpMethod ≠ .post → http.fileName ≠ "hello".toList →
      http.fileName ≠ "favicon.ico".toList → SameAt files files' (cStr http.fileName) := by
    intro method noHello noFavicon
    apply same
    unfold systemPaths
    cases asks : http.httpMethod with
    | post => exact absurd asks method
    | get | head =>
        simp only [if_neg noHello, if_neg noFavicon]
        cases files.stat (cStr http.fileName) <;> simp
  unfold analyzeRequest
  cases asks : http.httpMethod with
  | post => rfl
  | get | head =>
      have noted : http.noteKeepAlive.fileName = http.fileName := by
        unfold noteKeepAlive
        split <;> rfl
      simp only [noted]
      split
      · rfl
      · split
        · rfl
        · rename_i noHello noFavicon
          obtain ⟨stat, openRead, mmap⟩ := served (by simp [asks]) noHello noFavicon
          simp only [serveFile, noted, stat, openRead, mmap]

/-! ## The text of the target -/

/-- Where the method is found on the line: the position after which the slash is
looked for. -/
def methodStart (line : Str) : Option ℕ :=
  if found (findStr "GET".toList line 0) then some (toSize (toInt (findStr "GET".toList line 0)))
  else if found (findStr "POST".toList line 0) then
    some (toSize (toInt (findStr "POST".toList line 0)))
  else if found (findStr "HEAD".toList line 0) then
    some (toSize (toInt (findStr "HEAD".toList line 0)))
  else none

/-- The text behind the first slash from `start` on, up to the next space and without
what a question mark starts; `index.html` where there is no slash or a space follows it. -/
def targetText (line : Str) (start : ℕ) : Str :=
  match (line.drop start).dropWhile (· ≠ '/') with
  | [] => "index.html".toList
  | _ :: ' ' :: _ => "index.html".toList
  | _ :: text => (text.takeWhile (· ≠ ' ')).takeWhile (· ≠ '?')

/-- A text behind the slash that does not start with a space. -/
theorem targetText_of_text {line text : Str} {start : ℕ}
    (slash : (line.drop start).dropWhile (· ≠ '/') = '/' :: text) (noSpace : text.head? ≠ some ' ') :
    targetText line start = (text.takeWhile (· ≠ ' ')).takeWhile (· ≠ '?') := by
  unfold targetText
  rw [slash]
  split
  · contradiction
  · simp_all
  · simp_all

theorem parseVersion_fileName {http after : HttpData} {line : Str} {cur : ℕ} {state : URIState}
    (parsed : parseVersion http line cur = .ok (state, after)) : after.fileName = http.fileName := by
  obtain ⟨version, rfl⟩ := parseVersion_eq parsed
  rfl

/-- What a question mark starts is cut off. -/
theorem substr_questionMark (target : Str) (bound : target.length < npos) :
    substr target 0 (find target '?' 0) = .ok (target.takeWhile (· ≠ '?')) := by
  rcases split_first target '?' with absent | ⟨before, after, rfl, absent⟩
  · rw [find_of_not_mem (by simpa using absent), takeWhile_ne_of_not_mem absent, substr,
      if_pos (Nat.zero_le _), List.drop_zero, List.take_of_length_le (by omega)]
  · rw [find_zero_append absent, takeWhile_ne_append absent, substr, if_pos (Nat.zero_le _),
      List.drop_zero, List.take_left]

/-- A part that starts behind a position of the line. -/
theorem substr_behind {line rest : Str} {position count : ℕ} (bound : line.length < npos)
    (inside : position < line.length) (behind : line.drop (position + 1) = rest) :
    substr line (sizeAdd position 1) count = .ok (rest.take count) := by
  have next : sizeAdd position 1 = position + 1 := by
    unfold npos at bound
    unfold sizeAdd
    omega
  rw [next, substr, if_pos (Nat.succ_le_of_lt inside), behind]

/-- **The name is the text of the target**, wherever the searches lead. -/
theorem parseFileName_text {line : Str} (start : ℕ) (bound : line.length < npos) :
    parseFileName line (find line '/' start) (find line ' ' (find line '/' start)) =
      .ok (targetText line start) := by
  have limit : line.length < 2 ^ 64 - 1 := bound
  rcases find_cases line '/' start with ⟨noSlash, empty⟩ | ⟨inside, text, slash, dropSlash⟩
  · have noSpace : find line ' ' npos = npos :=
      find_of_not_mem (by rw [List.drop_eq_nil_of_le (Nat.le_of_lt bound)]; simp)
    rw [noSlash, noSpace, parseFileName, if_neg (by simp [sizeSub]), targetText, empty]
  · generalize find line '/' start = position at inside dropSlash
    have length : line.length = position + 1 + text.length := by
      have lengths := congrArg List.length dropSlash
      rw [List.length_drop, List.length_cons] at lengths
      omega
    have dropText : line.drop (position + 1) = text := by
      rw [← List.drop_drop, dropSlash, List.drop_one, List.tail_cons]
    rcases split_first text ' ' with none | ⟨target, more, rfl, none⟩
    · have noSpace : find line ' ' position = npos :=
        find_of_not_mem (by rw [dropSlash]; simpa using none)
      have wide : sizeSub npos position = npos - position :=
        sizeSub_of_le (by unfold npos; omega) (by decide)
      have left : sizeSub (npos - position) 1 = npos - position - 1 :=
        sizeSub_of_le (by unfold npos; omega) (by unfold npos; omega)
      rw [noSpace, parseFileName, wide, if_pos (by unfold npos; omega), left,
        substr_behind bound inside dropText, List.take_of_length_le (by unfold npos; omega)]
      show substr text 0 (find text '?' 0) = _
      rw [substr_questionMark text (by unfold npos; omega), targetText_of_text slash,
        takeWhile_ne_of_not_mem none]
      intro head
      exact none (List.mem_of_mem_head? head)
    · simp only [List.length_append, List.length_cons] at length
      have space : find line ' ' position = position + (target.length + 1) := by
        have noSpace : ' ' ∉ '/' :: target := by simpa using none
        exact find_of_drop dropSlash noSpace
      have wide : sizeSub (position + (target.length + 1)) position = target.length + 1 := by
        rw [sizeSub_of_le (by omega) (by omega), Nat.add_sub_cancel_left]
      rw [space, parseFileName, wide]
      cases target with
      | nil =>
          rw [if_neg (by simp), targetText, slash]
          rfl
      | cons c target =>
          have left : sizeSub ((c :: target).length + 1) 1 = (c :: target).length :=
            sizeSub_of_le (by omega) (by omega)
          rw [if_pos (by simp), left, substr_behind bound inside dropText, List.take_left]
          show substr (c :: target) 0 (find (c :: target) '?' 0) = _
          rw [substr_questionMark (c :: target) (by unfold npos; omega), targetText_of_text slash,
            takeWhile_ne_append none]
          intro head
          obtain rfl : c = ' ' := by simpa using head
          simp at none

theorem parseTarget_fileName {http after : HttpData} {line : Str} {start : ℕ}
    (bound : line.length < npos) (parsed : parseTarget http line start = .ok (.success, after)) :
    after.fileName = targetText line start := by
  unfold parseTarget at parsed
  simp only [Nat.not_lt_zero, if_false, parseFileName_text start bound] at parsed
  exact parseVersion_fileName parsed

theorem parseRequestLine_fileName {http after : HttpData} {line : Str} (bound : line.length < npos)
    (parsed : parseRequestLine http line = .ok (.success, after)) :
    ∃ start, methodStart line = some start ∧ after.fileName = targetText line start := by
  unfold parseRequestLine at parsed
  unfold methodStart
  dsimp only at parsed
  split at parsed
  · rename_i get
    exact ⟨_, if_pos get, parseTarget_fileName bound parsed⟩
  · rename_i get
    rw [if_neg get]
    split at parsed
    · rename_i post
      exact ⟨_, if_pos post, parseTarget_fileName bound parsed⟩
    · rename_i post
      rw [if_neg post]
      split at parsed
      · rename_i head
        exact ⟨_, if_pos head, parseTarget_fileName bound parsed⟩
      · cases parsed

/-- The request line of a buffer: as far as its first carriage return, or all of it. -/
def requestLine (http : HttpData) : Str :=
  http.bufferIn.take (find http.bufferIn '\r' (toSize http.readCur))

/-- **The name is the text of the request line.** -/
theorem parseURI_fileName {http after : HttpData} (bound : http.bufferIn.length < npos)
    (accepted : http.parseURI = .ok (.success, after)) :
    ∃ start, methodStart http.requestLine = some start ∧
      after.fileName = targetText http.requestLine start := by
  unfold parseURI at accepted
  simp only [Nat.not_lt_zero, if_false, substr, Nat.zero_le, if_true, List.drop_zero] at accepted
  split at accepted
  · rename_i line rest cut left
    obtain rfl := Except.ok.inj cut
    refine parseRequestLine_fileName ?_ accepted
    exact lt_of_le_of_lt (List.length_take_le' _ _) bound
  · cases accepted
  · cases accepted

/-! ## Confinement -/

/-- The path is relative, and none of its components leads to a parent directory. -/
def Confined (path : Str) : Prop :=
  path.head? ≠ some '/' ∧ "..".toList ∉ path.splitOn '/'

instance (path : Str) : Decidable (Confined path) :=
  inferInstanceAs (Decidable (path.head? ≠ some '/' ∧ "..".toList ∉ path.splitOn '/'))

/-- **The path is the text of the target, as it stands.** For every accepted request line and
whatever `parse_Headers` makes of the header block (`parseHeaders_eq`), the path passed to `stat` and
`open` is the text of the target as far as a zero byte, and it is confined exactly when that text
is. -/
theorem systemPaths_unfiltered {http line : HttpData} (bound : http.bufferIn.length < npos)
    (accepted : http.parseURI = .ok (.success, line)) (rest : Str) (parseState : ParseState)
    (headers : HeaderMap) (files : FileSystem) :
    ∃ start, methodStart http.requestLine = some start ∧
      ∀ path ∈ systemPaths files
          { line with
            bufferIn := rest, parseState := parseState, headers := headers,
            processState := .analysis },
        path = cStr (targetText http.requestLine start) ∧
          (Confined path ↔ Confined (cStr (targetText http.requestLine start))) := by
  obtain ⟨start, method, named⟩ := parseURI_fileName bound accepted
  refine ⟨start, method, fun path asked => ?_⟩
  have same : path = cStr (targetText http.requestLine start) := by
    rw [eq_of_mem_systemPaths asked, ← named]
  exact ⟨same, by rw [same]⟩

/-- A connection that has received the bytes. -/
def received (bytes : Str) : HttpData := { HttpData.new 5 with bufferIn := bytes }

/-- A file system in which every file is there, and none can be mapped. -/
def someFiles : FileSystem :=
  { stat := fun _ => some 1, openRead := fun _ => true, mmap := fun _ _ => none }

/-- What is read of a request line, as far as it decides the paths. -/
def lineRead (http : HttpData) : Except Fault (URIState × Str × HttpMethod) :=
  http.parseURI.map fun read => (read.1, read.2.fileName, read.2.httpMethod)

theorem exists_of_lineRead {http : HttpData} {state : URIState} {fileName : Str}
    {method : HttpMethod} (read : http.lineRead = .ok (state, fileName, method)) :
    ∃ line, http.parseURI = .ok (state, line) ∧ line.fileName = fileName ∧
      line.httpMethod = method := by
  unfold lineRead at read
  cases parsed : http.parseURI with
  | error fault => simp [parsed, Except.map] at read
  | ok result =>
      obtain ⟨state, line⟩ := result
      simp only [parsed, Except.map, Except.ok.injEq, Prod.mk.injEq] at read
      exact ⟨line, by rw [read.1], read.2⟩

/-- A request for a file that is no text of the program asks for its name. -/
theorem mem_systemPaths {http : HttpData} {path : Str} (method : http.httpMethod = .get)
    (named : http.fileName = path) (noHello : path ≠ "hello".toList)
    (noFavicon : path ≠ "favicon.ico".toList) (whole : cStr path = path) :
    path ∈ http.systemPaths someFiles := by
  simp only [systemPaths, method, named, if_neg noHello, if_neg noFavicon, someFiles, whole]
  exact List.mem_cons_self ..

/-- **A request leaves the working directory**, through its parent or from the root. -/
theorem parentAndRoot_escape :
    (∃ line, (received "GET /../secret HTTP/1.1\r\n\r\n".toList).parseURI = .ok (.success, line) ∧
      "../secret".toList ∈ line.systemPaths someFiles ∧ ¬ Confined "../secret".toList) ∧
    (∃ line, (received "GET //etc/passwd HTTP/1.1\r\n\r\n".toList).parseURI = .ok (.success, line) ∧
      "/etc/passwd".toList ∈ line.systemPaths someFiles ∧ ¬ Confined "/etc/passwd".toList) := by
  constructor
  · obtain ⟨line, accepted, named, method⟩ :=
      exists_of_lineRead (by decide +kernel : lineRead
        (received "GET /../secret HTTP/1.1\r\n\r\n".toList) = .ok (.success, "../secret".toList, .get))
    exact ⟨line, accepted,
      mem_systemPaths method named (by decide) (by decide) (by decide), by decide⟩
  · obtain ⟨line, accepted, named, method⟩ :=
      exists_of_lineRead (by decide +kernel : lineRead
        (received "GET //etc/passwd HTTP/1.1\r\n\r\n".toList) = .ok (.success, "/etc/passwd".toList, .get))
    exact ⟨line, accepted,
      mem_systemPaths method named (by decide) (by decide) (by decide), by decide⟩

/-- The path of a plain name is its text. -/
theorem plainName_unfiltered :
    ∃ line, (received "GET /a.txt HTTP/1.1\r\n\r\n".toList).parseURI = .ok (.success, line) ∧
      ∃ start, methodStart (received "GET /a.txt HTTP/1.1\r\n\r\n".toList).requestLine = some start ∧
        ∀ path ∈ systemPaths someFiles
            { line with
              bufferIn := "\n\r\n".toList, parseState := .start, headers := .empty,
              processState := .analysis },
          path = cStr (targetText (received "GET /a.txt HTTP/1.1\r\n\r\n".toList).requestLine start) ∧
            (Confined path ↔ Confined (cStr (targetText
              (received "GET /a.txt HTTP/1.1\r\n\r\n".toList).requestLine start))) := by
  obtain ⟨line, accepted, -⟩ :=
    exists_of_lineRead (by decide +kernel : lineRead
      (received "GET /a.txt HTTP/1.1\r\n\r\n".toList) = .ok (.success, "a.txt".toList, .get))
  exact ⟨line, accepted,
    systemPaths_unfiltered (by decide) accepted "\n\r\n".toList .start .empty someFiles⟩

end HttpData

end FastWebServer
