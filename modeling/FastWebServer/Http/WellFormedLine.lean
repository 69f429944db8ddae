import FastWebServer.Http.LineText

/-!
# Request lines as clients write them

A method, a target and a version. `parse_URI` looks for `GET` on the whole line before it looks
for `POST`, and for `POST` before it looks for `HEAD`. So a target that contains the name of an
earlier method changes the method of the request, and `wellFormedLine_iff` says that nothing
else goes wrong: a well-formed line is read as it is written exactly when no earlier method is
found in its target.
-/

set_option autoImplicit false

namespace FastWebServer

open Cxx

/-- The name of a method on the line. -/
def HttpMethod.text : HttpMethod → Str
  | .get => "GET".toList
  | .post => "POST".toList
  | .head => "HEAD".toList

/-- The name of a version on the line. -/
def HttpVersion.text : HttpVersion → Str
  | .http10 => "1.0".toList
  | .http11 => "1.1".toList

/-- The methods that are looked for before this one. -/
def HttpMethod.earlier : HttpMethod → List HttpMethod
  | .get => []
  | .post => [.get]
  | .head => [.get, .post]

namespace HttpData

/-- A request line. The target is what follows the slash. -/
def wellFormedLine (method : HttpMethod) (target : Str) (version : HttpVersion) : Str :=
  method.text ++ " /".toList ++ target ++ " HTTP/".toList ++ version.text

/-- The file that a target asks for. -/
def fileAsked (target : Str) : Str :=
  if target = [] then "index.html".toList else target.takeWhile (· ≠ '?')

/-- The name of another method is found in the target. Its position is that on the line, which
is an `int`. -/
def Overrides (other method : HttpMethod) (target : Str) : Prop :=
  found (findStr other.text target (method.text.length + 2)) = true

section WellFormedLine

variable {method : HttpMethod} {target : Str} {version : HttpVersion}

/-- An earlier method is found on the line where it is found in the target. -/
theorem findStr_wellFormedLine {other : HttpMethod} (earlier : other ∈ method.earlier) :
    findStr other.text (wellFormedLine method target version) 0 =
      findStr other.text target (method.text.length + 2) := by
  have behind : ∀ i, findStr other.text (target ++ ' ' :: ("HTTP/".toList ++ version.text)) i =
      findStr other.text target i := by
    intro i
    apply findStr_append_cons
    · cases other <;> decide
    · cases other <;> decide
    · intro j
      cases other <;> cases version <;> rfl
  have split : wellFormedLine method target version =
      method.text ++ " /".toList ++ (target ++ ' ' :: ("HTTP/".toList ++ version.text)) := by
    simp [wellFormedLine]
  rw [split, ← behind]
  cases method with
  | get => cases earlier
  | post =>
      obtain rfl : other = .get := List.mem_singleton.mp earlier
      rfl
  | head =>
      rcases List.mem_cons.mp earlier with rfl | earlier
      · rfl
      · obtain rfl : other = .post := List.mem_singleton.mp earlier
        rfl

/-- A method is found at the beginning of its own line. -/
theorem findStr_self : findStr method.text (wellFormedLine method target version) 0 = 0 := by
  have starts : method.text.isPrefixOf (wellFormedLine method target version) = true := by
    rw [List.isPrefixOf_iff_prefix]
    exact ⟨" /".toList ++ target ++ " HTTP/".toList ++ version.text, by simp [wellFormedLine]⟩
  cases line : wellFormedLine method target version with
  | nil => simp [wellFormedLine] at line
  | cons c rest =>
      rw [line] at starts
      rw [findStr, if_pos starts]

/-- **The method of a well-formed line** is the one it starts with, unless an earlier one is
found in the target. -/
theorem namedMethod_wellFormedLine :
    (∀ other ∈ method.earlier, ¬ Overrides other method target) ∧
        namedMethod (wellFormedLine method target version) = some (method, 0) ∨
      ∃ other ∈ method.earlier, Overrides other method target ∧
        ∃ start, namedMethod (wellFormedLine method target version) = some (other, start) := by
  have self : found (findStr method.text (wellFormedLine method target version) 0) = true ∧
      toSize (toInt (findStr method.text (wellFormedLine method target version) 0)) = 0 := by
    rw [findStr_self]
    exact ⟨by decide, by decide⟩
  have same : ∀ other ∈ method.earlier, (Overrides other method target ↔
      found (findStr other.text (wellFormedLine method target version) 0) = true) := by
    intro other earlier
    rw [Overrides, findStr_wellFormedLine earlier]
  unfold namedMethod
  cases method with
  | get =>
      refine .inl ⟨fun other earlier => (List.not_mem_nil earlier).elim, ?_⟩
      exact (if_pos self.1).trans (congrArg (fun start => some (HttpMethod.get, start)) self.2)
  | post =>
      have get := same .get (List.mem_singleton_self _)
      by_cases overrides : Overrides .get .post target
      · exact .inr ⟨.get, List.mem_singleton_self _, overrides, _, if_pos (get.mp overrides)⟩
      · refine .inl ⟨fun other earlier => List.mem_singleton.mp earlier ▸ overrides, ?_⟩
        exact (if_neg (mt get.mpr overrides)).trans ((if_pos self.1).trans
          (congrArg (fun start => some (HttpMethod.post, start)) self.2))
  | head =>
      have get := same .get (List.mem_cons_self ..)
      have post := same .post (List.mem_cons_of_mem _ (List.mem_singleton_self _))
      by_cases overrides : Overrides .get .head target
      · exact .inr ⟨.get, List.mem_cons_self .., overrides, _, if_pos (get.mp overrides)⟩
      · have noGet := mt get.mpr overrides
        by_cases overrides' : Overrides .post .head target
        · exact .inr ⟨.post, List.mem_cons_of_mem _ (List.mem_singleton_self _), overrides', _,
            (if_neg noGet).trans (if_pos (post.mp overrides'))⟩
        · refine .inl ⟨fun other earlier => ?_, ?_⟩
          · rcases List.mem_cons.mp earlier with rfl | earlier
            · exact overrides
            · exact List.mem_singleton.mp earlier ▸ overrides'
          · exact (if_neg noGet).trans ((if_neg (mt post.mpr overrides')).trans
              ((if_pos self.1).trans (congrArg (fun start => some (HttpMethod.head, start)) self.2)))

/-- The texts of a well-formed line, read from its beginning. -/
theorem texts_wellFormedLine (noSpace : ' ' ∉ target) :
    targetText (wellFormedLine method target version) 0 = fileAsked target ∧
      versionText (wellFormedLine method target version) 0 = version.text := by
  have noSlash : '/' ∉ method.text ++ [' '] := by cases method <;> decide
  have split : wellFormedLine method target version =
      (method.text ++ [' ']) ++ '/' :: (target ++ ' ' :: ("HTTP".toList ++ '/' :: version.text)) := by
    simp [wellFormedLine]
  have slash : ((wellFormedLine method target version).drop 0).dropWhile (· ≠ '/') =
      '/' :: (target ++ ' ' :: ("HTTP".toList ++ '/' :: version.text)) := by
    rw [List.drop_zero, split, dropWhile_ne_append noSlash]
  constructor
  · unfold fileAsked
    cases target with
    | nil =>
        rw [if_pos rfl, targetText, slash]
        rfl
    | cons c target =>
        rw [if_neg (List.cons_ne_nil _ _), targetText_of_text slash, takeWhile_ne_append noSpace]
        intro head
        obtain rfl : c = ' ' := by simpa using head
        simp at noSpace
  · have space : ('/' :: (target ++ ' ' :: ("HTTP".toList ++ '/' :: version.text))).dropWhile
        (· ≠ ' ') = ' ' :: ("HTTP".toList ++ '/' :: version.text) := by
      have noSpace' : ' ' ∉ '/' :: target := by simpa using noSpace
      exact @dropWhile_ne_append ('/' :: target) _ ' ' noSpace'
    have last : (' ' :: ("HTTP".toList ++ '/' :: version.text)).dropWhile (· ≠ '/') =
        '/' :: version.text :=
      @dropWhile_ne_append (' ' :: "HTTP".toList) _ '/' (by decide)
    rw [versionText, versionSlash, slash, space, last]
    cases version <;> rfl

theorem ne_of_mem_earlier {other : HttpMethod} (earlier : other ∈ method.earlier) :
    other ≠ method := by
  rintro rfl
  cases other <;> simp [HttpMethod.earlier] at earlier

/-- **A well-formed line is read as it is written exactly when no earlier method is found in its
target.** -/
theorem wellFormedLine_iff {http : HttpData} {rest : Str} (start : http.readCur = 0)
    (buffer : http.bufferIn = wellFormedLine method target version ++ '\r' :: rest)
    (noSpace : ' ' ∉ target) (noReturn : '\r' ∉ target)
    (bound : (wellFormedLine method target version).length < npos) :
    http.parseURI = .ok (.success, { http with
        bufferIn := rest, httpMethod := method, httpVersion := version
        fileName := fileAsked target }) ↔
      ∀ other ∈ method.earlier, ¬ Overrides other method target := by
  have absent : '\r' ∉ wellFormedLine method target version := by
    have fixed : '\r' ∉ method.text ∧ '\r' ∉ version.text := by
      cases method <;> cases version <;> decide
    simp [wellFormedLine, fixed.1, fixed.2, noReturn]
  have limit : (wellFormedLine method target version).length < 2 ^ 64 - 1 := bound
  rw [parseURI_line start buffer absent (by omega), parseRequestLine_text _ bound,
    Except.ok.injEq]
  rcases @namedMethod_wellFormedLine method target version with
    ⟨none, names⟩ | ⟨other, earlier, overrides, position, names⟩
  · refine iff_of_true ?_ none
    have stated : versionOf version.text = some version := by cases version <;> rfl
    obtain ⟨named, versioned⟩ := @texts_wellFormedLine method target version noSpace
    rw [answer_of_some names, named, versioned, versionAnswer, stated]
    rfl
  · refine iff_of_false (fun same => ?_) fun none => none other earlier overrides
    rw [answer_of_some names] at same
    exact ne_of_mem_earlier earlier (congrArg (fun read => read.2.httpMethod) same)

end WellFormedLine

/-- In a target whose positions on the line fit an `int`, a method is found if its name stands
there. -/
theorem overrides_iff {other method : HttpMethod} {target : Str}
    (bound : target.length + 6 < 2 ^ 31) :
    Overrides other method target ↔ other.text <:+: target := by
  have nonempty : other.text ≠ [] := by cases other <;> decide
  have offset : method.text.length + 2 ≤ 6 := by cases method <;> decide
  rw [Overrides, findStr_eq_getD, ← @findStrOpt_ne_none_iff _ _ (method.text.length + 2)]
  cases there : findStrOpt other.text target (method.text.length + 2) with
  | none => exact iff_of_false (by decide) fun some => some rfl
  | some position =>
      have inside := lt_of_findStrOpt nonempty there
      have fits : toInt position = position := toInt_of_lt (by omega)
      refine iff_of_true ?_ (Option.some_ne_none position)
      rw [Option.getD_some, found, fits]
      simp

/-- A form is posted as it is written. -/
theorem postForm_read :
    (received "POST /form?a=b HTTP/1.1\r\n".toList).parseURI = .ok (.success,
      { received "POST /form?a=b HTTP/1.1\r\n".toList with
        bufferIn := "\n".toList, httpMethod := .post, httpVersion := .http11
        fileName := fileAsked "form?a=b".toList }) := by
  refine (@wellFormedLine_iff .post "form?a=b".toList .http11
    (received "POST /form?a=b HTTP/1.1\r\n".toList) "\n".toList rfl (by decide) (by decide)
    (by decide) (by decide)).mpr ?_
  intro other earlier
  obtain rfl : other = .get := List.mem_singleton.mp earlier
  rw [overrides_iff (by decide)]
  decide +kernel

/-- **A `POST` is read as a `GET`** of another file, because of its target. -/
theorem postWidgets_misread :
    ' ' ∉ "WIDGETS/1".toList ∧ '\r' ∉ "WIDGETS/1".toList ∧
      (received "POST /WIDGETS/1 HTTP/1.1\r\n".toList).bufferIn =
        wellFormedLine .post "WIDGETS/1".toList .http11 ++ '\r' :: "\n".toList ∧
      (∃ read, (received "POST /WIDGETS/1 HTTP/1.1\r\n".toList).parseURI = .ok (.success, read) ∧
        read.fileName = "1".toList ∧ read.httpMethod = .get) ∧
      (received "POST /WIDGETS/1 HTTP/1.1\r\n".toList).parseURI ≠ .ok (.success,
        { received "POST /WIDGETS/1 HTTP/1.1\r\n".toList with
          bufferIn := "\n".toList, httpMethod := .post, httpVersion := .http11
          fileName := fileAsked "WIDGETS/1".toList }) := by
  have misread : lineRead (received "POST /WIDGETS/1 HTTP/1.1\r\n".toList) =
      .ok (.success, "1".toList, .get) := by decide +kernel
  obtain ⟨read, ran, named, get⟩ := exists_of_lineRead misread
  refine ⟨by decide, by decide, by decide, ⟨read, ran, named, get⟩, fun same => ?_⟩
  cases ran.symm.trans same
  cases get

end HttpData

end FastWebServer
