import Mathlib.Data.List.TakeWhile
import FastWebServer.Http.HeaderInjection
import FastWebServer.Http.ResumeHeaders

/-!
# Rendering headers and reading them back

A list of headers is rendered as `client_test` writes them, behind the line feed of the request
line, and `parse_Headers` reads the text. `H_START` skips the letter `r` where it should skip a
carriage return, so the first key loses the `r`s it begins with, and an empty list is not read at
all: the carriage return of the blank line begins a key. Everything else comes back: the list is
read back exactly when it is not empty, its text fits the positions of the scan, and the letters
that the first key loses make no difference (`roundTrip_iff`).
-/

set_option autoImplicit false

namespace FastWebServer

open Cxx

/-! ## Headers and their text -/

/-- A header: a key of letters, digits and `-`, and a value on one line. -/
structure HeaderField where
  key : Str
  value : Str
  key_nonempty : key ≠ []
  key_letters : ∀ c ∈ key, c.isAlphanum ∨ c = '-'
  value_nonempty : value ≠ []
  value_short : value.length ≤ 255
  value_plain : ∀ c ∈ value, c ≠ '\r' ∧ c ≠ '\n'

/-- The line of a header. -/
def headerText (key value : Str) : Str := key ++ ':' :: ' ' :: (value ++ ['\r', '\n'])

/-- The headers as they are sent behind the request line. -/
def render (fields : List HeaderField) : Str :=
  '\n' :: (fields.flatMap (fun field => headerText field.key field.value) ++ ['\r', '\n'])

/-- The last value that the list has for a key. -/
def lastWrite (fields : List HeaderField) : HeaderMap :=
  fun key => (fields.reverse.find? (fun field => field.key = key)).map HeaderField.value

/-- When a list is read back. -/
def ReadBack : List HeaderField → Prop
  | [] => False
  | first :: later =>
      (render (first :: later)).length < 2 ^ 31 + 4 ∧
        (first.key.head? ≠ some 'r' ∨
          (∃ field ∈ later, field.key = first.key) ∧
            ∃ field ∈ later, field.key = first.key.dropWhile (· = 'r'))

/-! ## Maps -/

/-- What is found in a map in which headers are stored: the last one stored for the key. -/
theorem storeAll_apply (headers : HeaderMap) (stored : List (Str × Str)) (key : Str) :
    storeAll headers stored key =
      ((stored.reverse.find? (fun header => header.1 = key)).map Prod.snd).or (headers key) := by
  induction stored generalizing headers with
  | nil => rfl
  | cons header stored ih =>
      have step : storeAll headers (header :: stored) =
          storeAll (headers.store header.1 header.2) stored := rfl
      rw [step, ih, List.reverse_cons, List.find?_append]
      cases stored.reverse.find? (fun header => decide (header.1 = key)) with
      | some last => rfl
      | none =>
          by_cases same : header.1 = key
          · simp [HeaderMap.store, same]
          · simp [HeaderMap.store, same, Ne.symm same]

/-- A key is found exactly if it was there or a header with it is stored. -/
theorem storeAll_ne_none_iff (headers : HeaderMap) (stored : List (Str × Str)) (key : Str) :
    storeAll headers stored key ≠ none ↔
      (∃ header ∈ stored, header.1 = key) ∨ headers key ≠ none := by
  rw [storeAll_apply, Ne, Option.or_eq_none_iff, Option.map_eq_none_iff, List.find?_eq_none]
  simp only [List.mem_reverse, decide_eq_true_eq, not_and_or, not_forall, not_not, exists_prop]

/-- The key under which the first header is stored makes no difference exactly if both keys are
stored again. -/
theorem storeAll_cons_eq_iff {key key' value : Str} {later : List (Str × Str)} :
    storeAll HeaderMap.empty ((key', value) :: later) =
        storeAll HeaderMap.empty ((key, value) :: later) ↔
      key' = key ∨ (∃ header ∈ later, header.1 = key) ∧ ∃ header ∈ later, header.1 = key' := by
  have first : ∀ k x, storeAll HeaderMap.empty ((k, value) :: later) x =
      ((later.reverse.find? (fun header => header.1 = x)).map Prod.snd).or
        (if x = k then some value else none) := by
    intro k x
    rw [← show HeaderMap.empty.store k value x = if x = k then some value else none from
      Function.update_apply _ _ _ _]
    exact storeAll_apply (HeaderMap.empty.store k value) later x
  have absent : ∀ x, later.reverse.find? (fun header => header.1 = x) = none ↔
      ¬ ∃ header ∈ later, header.1 = x := by
    intro x
    rw [List.find?_eq_none]
    simp only [List.mem_reverse, decide_eq_true_eq, not_exists, not_and]
  constructor
  · intro same
    by_cases equal : key' = key
    · exact .inl equal
    refine .inr ⟨?_, ?_⟩
    · by_contra missing
      have there := congrFun same key
      rw [first, first, (absent key).mpr missing, if_neg (Ne.symm equal), if_pos rfl] at there
      cases there
    · by_contra missing
      have there := congrFun same key'
      rw [first, first, (absent key').mpr missing, if_neg equal, if_pos rfl] at there
      cases there
  · rintro (rfl | ⟨again, again'⟩)
    · rfl
    funext x
    rw [first, first]
    by_cases equal : x = key
    · subst equal
      obtain ⟨last, found⟩ := Option.ne_none_iff_exists'.mp (mt (absent x).mp (not_not.mpr again))
      rw [found]
      rfl
    by_cases equal' : x = key'
    · subst equal'
      obtain ⟨last, found⟩ := Option.ne_none_iff_exists'.mp (mt (absent x).mp (not_not.mpr again'))
      rw [found]
      rfl
    rw [if_neg equal, if_neg equal']

/-- The pairs of a list of headers. -/
def pairs (fields : List HeaderField) : List (Str × Str) :=
  fields.map fun field => (field.key, field.value)

theorem lastWrite_eq (fields : List HeaderField) :
    lastWrite fields = storeAll HeaderMap.empty (pairs fields) := by
  funext key
  rw [storeAll_apply, pairs, ← List.map_reverse, List.find?_map, Option.map_map, lastWrite]
  exact (Option.or_none).symm

/-! ## Lines for headers -/

/-- The line of a key and a value. -/
def HeaderLine.of (key value : Str) (keySome : key ≠ []) (valueSome : value ≠ [])
    (keyPlain : ∀ c ∈ key, c ≠ ':' ∧ c ≠ '\n' ∧ c ≠ '\r') (valuePlain : '\r' ∉ value)
    (short : value.length ≤ 255) : HeaderLine where
  keyHead := key.head keySome
  keyTail := key.tail
  valueHead := value.head valueSome
  valueTail := value.tail
  keyTail_plain c member := keyPlain c (List.mem_of_mem_tail member)
  valueTail_plain member := valuePlain (List.mem_of_mem_tail member)
  valueTail_short := by
    rw [List.length_tail]
    omega

namespace HeaderField

theorem key_plain (field : HeaderField) : ∀ c ∈ field.key, c ≠ ':' ∧ c ≠ '\n' ∧ c ≠ '\r' := by
  intro c member
  refine ⟨?_, ?_, ?_⟩
  all_goals
    rintro rfl
    exact absurd (field.key_letters _ member) (by decide)

/-- What `H_START` leaves of a first key. -/
def stripped (field : HeaderField) : Str := field.key.dropWhile (· = 'r')

theorem mem_of_mem_stripped {field : HeaderField} {c : Char} (member : c ∈ field.stripped) :
    c ∈ field.key :=
  (List.dropWhile_suffix _).subset member

/-- The line that is read of a header, with its key or with what is left of it. -/
def lineWith (field : HeaderField) (key : Str) (keySome : key ≠ [])
    (part : ∀ c ∈ key, c ∈ field.key) : HeaderLine :=
  .of key field.value keySome field.value_nonempty
    (fun c member => field.key_plain c (part c member))
    (fun member => (field.value_plain _ member).1 rfl) field.value_short

variable {field : HeaderField} {key : Str} {keySome : key ≠ []} {part : ∀ c ∈ key, c ∈ field.key}

@[simp] theorem key_lineWith : (field.lineWith key keySome part).key = key :=
  List.cons_head_tail keySome

@[simp] theorem keyHead_lineWith :
    (field.lineWith key keySome part).keyHead = key.head keySome :=
  rfl

@[simp] theorem value_lineWith : (field.lineWith key keySome part).value = field.value :=
  List.cons_head_tail field.value_nonempty

@[simp] theorem text_lineWith :
    (field.lineWith key keySome part).text = headerText key field.value := by
  simp [HeaderLine.text, HeaderLine.body, headerText]

/-- The line of a header. -/
def line (field : HeaderField) : HeaderLine :=
  field.lineWith field.key field.key_nonempty fun _ member => member

theorem keyHead_mem (field : HeaderField) : field.line.keyHead ∈ field.key :=
  List.head_mem field.key_nonempty

end HeaderField

/-! ## Reading the lines of a list -/

/-- Lines that fit can be read behind others. -/
theorem lines_of_fits {before : Str} {lines later : List HeaderLine} (reads : Lines before lines)
    (some : lines ≠ []) (heads : ∀ line ∈ later, line.keyHead ≠ '\r')
    (fits : (before ++ linesText later).length < 2 ^ 31 + 2) :
    Lines (before ++ linesText later) (lines ++ later) := by
  induction later generalizing before lines with
  | nil => simpa [linesText] using reads
  | cons line later ih =>
      have text : before ++ linesText (line :: later) =
          before ++ line.text ++ linesText later := by simp [linesText]
      have order : lines ++ line :: later = lines ++ [line] ++ later := by simp
      have begins : Begins lines line.keyHead := by
        rw [Begins, if_neg some]
        exact heads line List.mem_cons_self
      rw [text] at fits ⊢
      rw [order]
      have short : before.length + line.valueTo < 2 ^ 31 := by
        rw [List.length_append, List.length_append, line.length_text] at fits
        omega
      exact ih (.line reads line begins (HeaderLine.passes_of_fits short)) (by simp)
        (fun line member => heads line (List.mem_cons_of_mem _ member)) fits

/-- A line behind others that the scan gets past passes. -/
theorem passes_of_scan {buffer before rest : Str} {lines : List HeaderLine} {line : HeaderLine}
    {headers : HeaderMap} {j : ℕ} {last : HeaderScan} (reads : Lines before lines)
    (begins : Begins lines line.keyHead) (whole : buffer = before ++ line.text ++ rest)
    (stopped : scanHeaders buffer buffer 0 (.enter .start headers) = .stopped j last) :
    line.Passes before.length := by
  obtain ⟨scan, passed, awaits, -⟩ := scan_lines reads headers (line.text ++ rest)
    (line.text ++ rest)
  rw [← List.append_assoc, ← whole, stopped] at passed
  exact passes_of_stopped awaits begins passed.symm

/-- Lines that the scan gets past fit if their keys do. -/
theorem fits_of_stopped {buffer before rest : Str} {lines later : List HeaderLine}
    {headers : HeaderMap} {j : ℕ} {last : HeaderScan} (reads : Lines before lines)
    (some : lines ≠ []) (heads : ∀ line ∈ later, line.keyHead ≠ '\r')
    (short : ∀ line ∈ later, line.key.length < 2 ^ 31) (near : before.length < 2 ^ 31 + 2)
    (whole : buffer = before ++ linesText later ++ rest)
    (stopped : scanHeaders buffer buffer 0 (.enter .start headers) = .stopped j last) :
    (before ++ linesText later).length < 2 ^ 31 + 2 := by
  induction later generalizing before lines with
  | nil => simpa [linesText] using near
  | cons line later ih =>
      have text : before ++ linesText (line :: later) = before ++ line.text ++ linesText later := by
        simp [linesText]
      have begins : Begins lines line.keyHead := by
        rw [Begins, if_neg some]
        exact heads line List.mem_cons_self
      rw [text] at whole ⊢
      have passes := passes_of_scan reads begins (whole.trans (List.append_assoc _ _ _)) stopped
      have fits := passes.fits near (short line List.mem_cons_self)
      refine ih (.line reads line begins passes) (by simp)
        (fun line member => heads line (List.mem_cons_of_mem _ member))
        (fun line member => short line (List.mem_cons_of_mem _ member)) ?_ whole
      rw [List.length_append, line.length_text]
      omega

namespace HttpData

/-- **Lines with a blank line behind them are accepted**, whatever follows. -/
theorem parseHeaders_lines {http : HttpData} {before more : Str} {lines : List HeaderLine}
    (fresh : http.AtBlockStart) (buffer : http.bufferIn = before ++ ['\r', '\n'] ++ more)
    (reads : Lines before lines) (some : lines ≠ []) (fits : before.length < 2 ^ 31 + 2) :
    ∃ after, http.parseHeaders = .ok (.success, after) ∧
      after.headers = storeLines HeaderMap.empty lines := by
  obtain ⟨scan, passed, awaits, stored⟩ :=
    scan_lines reads http.headers ['\r', '\n'] ['\r', '\n']
  have length : (before ++ ['\r', '\n']).length = before.length + 2 := List.length_append
  rw [scan_blankLine awaits.1 (awaits.2.trans (if_neg some)), scanHeaders, ← length] at passed
  have parsed := @parseHeaders_more http (before ++ ['\r', '\n']) more
    { scan with parseState := .endLf } buffer fresh.1 passed rfl awaits.1
  exact ⟨_, parsed, by rw [← fresh.2]; exact stored fits⟩

/-- The list of no headers is not read. -/
theorem parseHeaders_noHeaders {http : HttpData} (fresh : http.AtBlockStart)
    (buffer : http.bufferIn = render []) : ∃ after, http.parseHeaders = .ok (.error, after) := by
  have failed : ∃ scan, scanHeaders (render []) (render []) 0 (.enter .start HeaderMap.empty) =
      .error scan := ⟨_, rfl⟩
  obtain ⟨scan, failed⟩ := failed
  unfold parseHeaders
  simp only [fresh.1, fresh.2, buffer, failed]
  exact ⟨_, rfl⟩

end HttpData

/-! ## What the first key loses -/

/-- Two texts whose first parts are skipped and followed by characters that are not are divided at
the same place. -/
theorem skipped_unique {skipped skipped' rest rest' : Str} {c c' : Char}
    (all : ∀ x ∈ skipped, x = '\n' ∨ x = 'r') (begins : ¬ (c = '\n' ∨ c = 'r'))
    (all' : ∀ x ∈ skipped', x = '\n' ∨ x = 'r') (begins' : ¬ (c' = '\n' ∨ c' = 'r'))
    (same : skipped ++ c :: rest = skipped' ++ c' :: rest') : skipped = skipped' ∧ c = c' := by
  have first : ∀ (text rest : Str) (c : Char), (∀ x ∈ text, x = '\n' ∨ x = 'r') →
      ¬ (c = '\n' ∨ c = 'r') →
      (text ++ c :: rest).takeWhile (fun x => x = '\n' ∨ x = 'r') = text := by
    intro text rest c all begins
    rw [List.takeWhile_append_of_pos (by simpa using all), List.takeWhile_cons,
      if_neg (by simpa using begins), List.append_nil]
  have equal := first skipped rest c all begins
  rw [same, first skipped' rest' c' all' begins'] at equal
  subst equal
  exact ⟨rfl, (List.cons.inj (List.append_cancel_left same)).1⟩

/-- The first of some lines. -/
theorem Lines.first {before : Str} {lines : List HeaderLine} (reads : Lines before lines)
    (some : lines ≠ []) :
    ∃ (skipped : Str) (line : HeaderLine) (rest : Str), before = skipped ++ line.text ++ rest ∧
      (∀ c ∈ skipped, c = '\n' ∨ c = 'r') ∧ Begins [] line.keyHead ∧ line.Passes skipped.length := by
  induction reads with
  | skip => exact absurd rfl some
  | @line before lines earlier line begins passes ih =>
      by_cases none : lines = []
      · subst none
        exact ⟨before, line, [], (List.append_nil _).symm, earlier.skipped rfl, begins, passes⟩
      · obtain ⟨skipped, first, rest, rfl, all, begins', passes'⟩ := ih none
        exact ⟨skipped, first, rest ++ line.text, by simp, all, begins', passes'⟩

/-- The key that is cut out of the beginning of a buffer begins as its line does. -/
theorem keyIn_head {buffer before rest : Str} {line : HeaderLine}
    (passes : line.Passes before.length)
    (near : before.length ≤ 2 ^ 31) (whole : buffer = before ++ line.keyHead :: rest) :
    ∃ tail, line.keyIn buffer before.length = line.keyHead :: tail := by
  have start : toInt before.length = before.length := by
    have nonneg := passes.keyStart
    unfold toInt at nonneg ⊢
    omega
  have order := passes.keyOrder
  rw [start] at order
  have some : (toInt (before.length + line.key.length) - before.length).toNat ≠ 0 := by omega
  obtain ⟨count, length⟩ := Nat.exists_eq_succ_of_ne_zero some
  rw [HeaderLine.keyIn, start, length, Int.toNat_natCast, whole, List.drop_left, List.take_succ_cons]
  exact ⟨_, rfl⟩

/-- The first line of a buffer that is read to the end of a block. -/
theorem first_of_stopped {buffer : Str} {headers : HeaderMap} {j : ℕ} {last : HeaderScan}
    (stopped : scanHeaders buffer buffer 0 (.enter .start headers) = .stopped j last)
    (ended : last.parseState = .endLf) :
    ∃ skipped line, LineAt buffer skipped line ∧ (∀ c ∈ skipped, c = '\n' ∨ c = 'r') ∧
      Begins [] line.keyHead := by
  obtain ⟨read, left, whole, -, ⟨before, lines, reads, now⟩, -⟩ := scan_induction Stands
    (fun _ _ _ _ _ _ stands unfinished step => headerStep_stands stands unfinished step)
    (List.nil_append buffer) (stands_enter headers) stopped
  simp only [ended] at now
  obtain ⟨some, more, rfl⟩ := now
  obtain ⟨skipped, line, rest, rfl, all, begins, passes⟩ := reads.first some
  refine ⟨skipped, line, ⟨[], rest ++ '\r' :: '\n' :: more ++ left, .skip all, begins, passes, ?_⟩,
    all, begins⟩
  rw [← whole]
  simp [HeaderLine.text]

/-- The keys that are stored are no longer than an `int`. -/
theorem length_of_stored {buffer : Str} {headers : HeaderMap} {header : Str × Str}
    (member : header ∈ headersStored buffer buffer 0 (.enter .start headers)) :
    header.1.length < 2 ^ 31 := by
  obtain ⟨before, line, ⟨lines, rest, -, -, passes, -⟩, rfl⟩ := lineAt_of_stored member
  have start := passes.keyStart
  have bound : (toInt (before.length + line.key.length) - toInt before.length).toNat < 2 ^ 31 := by
    unfold toInt at start ⊢
    omega
  have cut : (line.keyIn buffer before.length).length ≤
      (toInt (before.length + line.key.length) - toInt before.length).toNat :=
    List.length_take_le _ _
  dsimp only
  exact cut.trans_lt bound

/-! ## The round trip -/

/-- The text of a list, from what `H_START` skips of it on. -/
theorem render_cons (first : HeaderField) (later : List HeaderField)
    (keySome : first.stripped ≠ []) :
    render (first :: later) = '\n' :: first.key.takeWhile (· = 'r') ++
      linesText (first.lineWith first.stripped keySome (fun _ => HeaderField.mem_of_mem_stripped) ::
        later.map HeaderField.line) ++ ['\r', '\n'] := by
  have whole : first.key = first.key.takeWhile (· = 'r') ++ first.stripped :=
    (List.takeWhile_append_dropWhile).symm
  have lines : linesText (later.map HeaderField.line) =
      later.flatMap (fun field => headerText field.key field.value) := by
    rw [linesText, List.flatMap_map]
    apply List.flatMap_congr
    intro field member
    exact HeaderField.text_lineWith
  rw [linesText, List.flatMap_cons, ← linesText, lines, HeaderField.text_lineWith, render,
    List.flatMap_cons]
  conv_lhs => rw [headerText, whole]
  simp [headerText]

/-- What `H_START` skips of a list. -/
theorem skips_render (first : HeaderField) :
    ∀ c ∈ '\n' :: first.key.takeWhile (· = 'r'), c = '\n' ∨ c = 'r' := by
  intro c member
  rcases List.mem_cons.mp member with rfl | member
  · exact .inl rfl
  · exact .inr (by simpa using List.mem_takeWhile_imp member)

/-- What is left of the first key does not begin with what is skipped. -/
theorem begins_stripped {first : HeaderField} {keySome : first.stripped ≠ []} :
    Begins [] (first.lineWith first.stripped keySome
      (fun _ => HeaderField.mem_of_mem_stripped)).keyHead := by
  have member : first.stripped.head keySome ∈ first.key :=
    HeaderField.mem_of_mem_stripped (List.head_mem keySome)
  have noR : decide (first.stripped.head keySome = 'r') = false :=
    List.head_dropWhile_not (fun c => decide (c = 'r')) keySome
  rw [Begins, if_pos rfl]
  rw [HeaderField.keyHead_lineWith]
  exact ⟨(first.key_plain _ member).2.1, of_decide_eq_false noR⟩

theorem storeLines_eq (headers : HeaderMap) (lines : List HeaderLine) :
    storeLines headers lines = storeAll headers (lines.map fun line => (line.key, line.value)) := by
  rw [storeLines, storeAll, List.foldl_map]

/-- A key begins with another letter exactly if nothing of it is lost. -/
theorem stripped_eq_iff (field : HeaderField) :
    field.stripped = field.key ↔ field.key.head? ≠ some 'r' := by
  obtain ⟨c, tail, key⟩ := List.exists_cons_of_ne_nil field.key_nonempty
  rw [HeaderField.stripped, key, List.head?_cons, List.dropWhile_cons]
  by_cases lost : c = 'r'
  · rw [if_pos (by simpa using lost)]
    refine iff_of_false (fun same => ?_) (fun other => other (congrArg some lost))
    have shorter := (List.dropWhile_suffix (fun c => decide (c = 'r')) : _ <:+ tail).length_le
    rw [same, List.length_cons] at shorter
    omega
  · rw [if_neg (by simpa using lost)]
    exact iff_of_true rfl (fun same => lost (Option.some.inj same))

namespace HttpData

variable {http after : HttpData} {first : HeaderField} {later : List HeaderField}

/-- **A list whose text fits is accepted**, and its first key is stored without the `r`s that it
begins with. -/
theorem parseHeaders_render (fresh : http.AtBlockStart)
    (buffer : http.bufferIn = render (first :: later)) (keySome : first.stripped ≠ [])
    (fits : (render (first :: later)).length < 2 ^ 31 + 4) :
    ∃ after, http.parseHeaders = .ok (.success, after) ∧
      after.headers =
        storeAll HeaderMap.empty ((first.stripped, first.value) :: pairs later) := by
  have text := render_cons first later keySome
  generalize shape : first.lineWith first.stripped keySome
    (fun _ => HeaderField.mem_of_mem_stripped) = line at text
  have begins : Begins [] line.keyHead := shape ▸ begins_stripped
  rw [text, List.length_append] at fits
  have within : ('\n' :: first.key.takeWhile (· = 'r') ++
      linesText (line :: later.map HeaderField.line)).length < 2 ^ 31 + 2 := by
    have two : (['\r', '\n'] : Str).length = 2 := rfl
    omega
  have behind : '\n' :: first.key.takeWhile (· = 'r') ++
      linesText (line :: later.map HeaderField.line) =
      '\n' :: first.key.takeWhile (· = 'r') ++ line.text ++
        linesText (later.map HeaderField.line) := by simp [linesText]
  have short : ('\n' :: first.key.takeWhile (· = 'r')).length + line.valueTo < 2 ^ 31 := by
    rw [behind, List.length_append, List.length_append, line.length_text] at within
    omega
  have heads : ∀ line ∈ later.map HeaderField.line, line.keyHead ≠ '\r' := by
    intro line' member
    obtain ⟨field, -, rfl⟩ := List.mem_map.mp member
    exact (field.key_plain _ field.keyHead_mem).2.2
  have reads := lines_of_fits
    (.line (.skip (skips_render first)) line begins (HeaderLine.passes_of_fits short))
    (List.cons_ne_nil _ _) heads (behind ▸ within)
  rw [← behind] at reads
  obtain ⟨after, accepted, stored⟩ :=
    parseHeaders_lines fresh ((buffer.trans text).trans (List.append_nil _).symm) reads
      (List.cons_ne_nil _ _) within
  refine ⟨after, accepted, ?_⟩
  rw [stored, storeLines_eq, List.nil_append, List.singleton_append, List.map_cons, ← shape,
    HeaderField.key_lineWith, HeaderField.value_lineWith, List.map_map, pairs]
  congr 2
  apply List.map_congr_left
  intro field member
  simp [HeaderField.line]

/-- What is read back has keys that fit an `int`. -/
theorem keys_short {fields : List HeaderField} (fresh : http.AtBlockStart)
    (accepted : http.parseHeaders = .ok (.success, after))
    (same : after.headers = lastWrite fields) : ∀ field ∈ fields, field.key.length < 2 ^ 31 := by
  intro field member
  have there : lastWrite fields field.key ≠ none := by
    rw [lastWrite_eq, storeAll_ne_none_iff]
    exact .inl ⟨_, List.mem_map_of_mem member, rfl⟩
  rw [← same, parseHeaders_headers accepted, fresh.2, storeAll_ne_none_iff] at there
  rcases there with ⟨header, stored, key⟩ | none
  · rw [headersStored, fresh.1] at stored
    rw [← key]
    exact length_of_stored stored
  · exact absurd rfl none

/-- What is read back has a first key that is more than `r`s: the colon behind them would be the
beginning of a key. -/
theorem stripped_ne_nil (fresh : http.AtBlockStart)
    (buffer : http.bufferIn = render (first :: later))
    (accepted : http.parseHeaders = .ok (.success, after))
    (same : after.headers = lastWrite (first :: later)) : first.stripped ≠ [] := by
  intro nothing
  have all : ∀ c ∈ first.key, c = 'r' := by
    intro c member
    simpa using List.dropWhile_eq_nil_iff.mp nothing c member
  have skips : ∀ c ∈ '\n' :: first.key, c = '\n' ∨ c = 'r' := by
    intro c member
    exact (List.mem_cons.mp member).imp_right (all c)
  have text : ∃ rest, http.bufferIn = '\n' :: first.key ++ ':' :: rest := by
    rw [buffer, render, List.flatMap_cons, headerText]
    exact ⟨_, by simp; rfl⟩
  obtain ⟨rest, text⟩ := text
  obtain ⟨j, last, -, stopped, ended, -⟩ := parseHeaders_success accepted
  rw [fresh.1] at stopped
  obtain ⟨skipped, line, there, skips', begins⟩ := first_of_stopped stopped ended
  have stored := stored_of_lineAt http.headers there
  obtain ⟨lines, rest', -, -, passes, whole⟩ := there
  have split : skipped ++ line.body ++ '\n' :: rest' = skipped ++ line.keyHead ::
      (line.keyTail ++ ':' :: ' ' :: (line.value ++ ['\r']) ++ '\n' :: rest') := by
    simp [HeaderLine.body, HeaderLine.key]
  rw [split] at whole
  rw [Begins, if_pos rfl] at begins
  obtain ⟨place, colon⟩ := skipped_unique skips' (not_or.mpr begins) skips (by decide)
    (whole.symm.trans text)
  have near : skipped.length ≤ 2 ^ 31 := by
    have short := keys_short fresh accepted same first List.mem_cons_self
    rw [place, List.length_cons]
    omega
  obtain ⟨tail, key⟩ := keyIn_head passes near whole
  -- the header that is stored under a key with a colon is in no list
  have found : after.headers (line.keyIn http.bufferIn skipped.length) ≠ none := by
    rw [parseHeaders_headers accepted, storeAll_ne_none_iff, headersStored, fresh.1]
    generalize line.keyIn http.bufferIn skipped.length = cutKey at stored
    exact .inl ⟨(cutKey, _), stored, rfl⟩
  rw [same, lastWrite_eq, storeAll_ne_none_iff] at found
  rcases found with ⟨header, member, isKey⟩ | none
  · obtain ⟨field, -, rfl⟩ := List.mem_map.mp member
    have inKey : ':' ∈ field.key := by
      rw [show field.key = line.keyIn http.bufferIn skipped.length from isKey, key, colon]
      exact List.mem_cons_self
    exact (field.key_plain ':' inKey).1 rfl
  · exact absurd rfl none

/-- What is read back has a text that fits. -/
theorem render_fits (fresh : http.AtBlockStart)
    (buffer : http.bufferIn = render (first :: later))
    (accepted : http.parseHeaders = .ok (.success, after))
    (short : ∀ field ∈ first :: later, field.key.length < 2 ^ 31) (keySome : first.stripped ≠ []) :
    (render (first :: later)).length < 2 ^ 31 + 4 := by
  have text := render_cons first later keySome
  have keyShort : (first.lineWith first.stripped keySome
      (fun _ => HeaderField.mem_of_mem_stripped)).key.length < 2 ^ 31 := by
    rw [HeaderField.key_lineWith]
    exact (List.dropWhile_suffix _).length_le.trans_lt (short first List.mem_cons_self)
  generalize shape : first.lineWith first.stripped keySome
    (fun _ => HeaderField.mem_of_mem_stripped) = line at text keyShort
  have begins : Begins [] line.keyHead := shape ▸ begins_stripped
  have near : ('\n' :: first.key.takeWhile (· = 'r')).length < 2 ^ 31 + 2 := by
    have skipped := (List.takeWhile_prefix (fun c => decide (c = 'r')) : _ <+: first.key).length_le
    have fits := short first List.mem_cons_self
    rw [List.length_cons]
    omega
  obtain ⟨j, last, -, stopped, ended, -⟩ := parseHeaders_success accepted
  rw [fresh.1] at stopped
  have behind : '\n' :: first.key.takeWhile (· = 'r') ++
      linesText (line :: later.map HeaderField.line) =
      '\n' :: first.key.takeWhile (· = 'r') ++ line.text ++
        linesText (later.map HeaderField.line) := by simp [linesText]
  have whole := buffer.trans text
  rw [behind] at whole text
  have passes := passes_of_scan (.skip (skips_render first)) begins
    (whole.trans (List.append_assoc _ _ _)) stopped
  have fits := passes.fits near keyShort
  have all := fits_of_stopped (.line (.skip (skips_render first)) line begins passes)
    (List.cons_ne_nil _ _) ?_ ?_ ?_ whole stopped
  · rw [text, List.length_append]
    exact Nat.add_lt_add_right all 2
  · intro line' member
    obtain ⟨field, -, rfl⟩ := List.mem_map.mp member
    exact (field.key_plain _ field.keyHead_mem).2.2
  · intro line' member
    obtain ⟨field, there, rfl⟩ := List.mem_map.mp member
    rw [HeaderField.line, HeaderField.key_lineWith]
    exact short field (List.mem_cons_of_mem _ there)
  · rw [List.length_append, line.length_text]
    omega

/-- **A list of headers comes back from its text exactly when it is not empty, the text fits, and
the `r`s that the first key begins with make no difference.** -/
theorem roundTrip_iff {http : HttpData} {fields : List HeaderField} (fresh : http.AtBlockStart)
    (buffer : http.bufferIn = render fields) :
    (∃ after, http.parseHeaders = .ok (.success, after) ∧ after.headers = lastWrite fields) ↔
      ReadBack fields := by
  cases fields with
  | nil =>
      refine iff_of_false ?_ id
      rintro ⟨after, accepted, -⟩
      obtain ⟨failed, refused⟩ := parseHeaders_noHeaders fresh buffer
      rw [accepted] at refused
      cases refused
  | cons first later =>
      have again : ∀ key, (∃ header ∈ pairs later, header.1 = key) ↔
          ∃ field ∈ later, field.key = key := by
        intro key
        simp only [pairs, List.mem_map, exists_exists_and_eq_and]
      have equal : storeAll HeaderMap.empty ((first.stripped, first.value) :: pairs later) =
          lastWrite (first :: later) ↔ first.key.head? ≠ some 'r' ∨
            (∃ field ∈ later, field.key = first.key) ∧
              ∃ field ∈ later, field.key = first.stripped := by
        have both : pairs (first :: later) = (first.key, first.value) :: pairs later := rfl
        rw [lastWrite_eq, both, storeAll_cons_eq_iff, again, again, stripped_eq_iff]
      constructor
      · rintro ⟨after, accepted, same⟩
        have keySome := stripped_ne_nil fresh buffer accepted same
        have fits := render_fits fresh buffer accepted (keys_short fresh accepted same) keySome
        obtain ⟨after', accepted', stored⟩ := parseHeaders_render fresh buffer keySome fits
        cases accepted.symm.trans accepted'
        exact ⟨fits, equal.mp (stored.symm.trans same)⟩
      · rintro ⟨fits, noLoss⟩
        have keySome : first.stripped ≠ [] := by
          rcases noLoss with whole | ⟨-, field, -, same⟩
          · rw [(stripped_eq_iff first).mpr whole]
            exact first.key_nonempty
          · rw [HeaderField.stripped, ← same]
            exact field.key_nonempty
        obtain ⟨after, accepted, stored⟩ := parseHeaders_render fresh buffer keySome fits
        exact ⟨after, accepted, stored.trans (equal.mpr noLoss)⟩

/-- A header, twice, with another value. -/
def hostTwice : List HeaderField :=
  [⟨"Host".toList, "a".toList, by decide, by simp, by decide, by decide, by simp⟩,
    ⟨"Host".toList, "b".toList, by decide, by simp, by decide, by decide, by simp⟩]

/-- The second value comes back. -/
theorem hostTwice_readBack :
    ∃ after, (afterLineFeed "Host: a\r\nHost: b\r\n\r\n".toList).parseHeaders =
        .ok (.success, after) ∧ after.headers = lastWrite hostTwice :=
  (@roundTrip_iff (afterLineFeed "Host: a\r\nHost: b\r\n\r\n".toList) hostTwice ⟨rfl, rfl⟩
    (by decide)).mpr ⟨by decide, .inl (by decide)⟩

/-- A key that begins with the letter that `H_START` skips. -/
def referer : HeaderField :=
  ⟨"referer".toList, "x".toList, by decide, by simp, by decide, by decide, by simp⟩

/-- **The first key comes back without its first letter, and no headers are refused.** -/
theorem referer_loses :
    (afterLineFeed "referer: x\r\n\r\n".toList).bufferIn = render [referer] ∧
      (∃ after, (afterLineFeed "referer: x\r\n\r\n".toList).parseHeaders =
        .ok (.success, after) ∧ after.headers "eferer".toList = some "x".toList ∧
        after.headers "referer".toList = none ∧ after.headers ≠ lastWrite [referer]) ∧
      (afterLineFeed "\r\n".toList).bufferIn = render [] ∧
      ∃ after, (afterLineFeed "\r\n".toList).parseHeaders = .ok (.error, after) := by
  obtain ⟨after, accepted, -⟩ := exists_of_blockRead (by decide +kernel :
    blockRead (afterLineFeed "referer: x\r\n\r\n".toList) = .ok (.success, []))
  have stored : (afterLineFeed "referer: x\r\n\r\n".toList).headersStored =
      [("eferer".toList, "x".toList)] := by decide +kernel
  have headers := parseHeaders_headers accepted
  rw [stored] at headers
  have lost : after.headers "referer".toList = none := by
    rw [headers]
    decide
  refine ⟨by decide, ⟨after, accepted, by rw [headers]; decide, lost, fun same => ?_⟩, by decide,
    parseHeaders_noHeaders ⟨rfl, rfl⟩ (by decide)⟩
  rw [same] at lost
  exact absurd lost (by decide)

end HttpData

end FastWebServer
