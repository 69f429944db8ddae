import FastWebServer.Http.ParseHeaders
import FastWebServer.Http.ResponseFraming

/-!
# The response to HEAD

A `HEAD` asks for what a `GET` would answer, without the body. `HeadOf` is that part of an output,
up to its first blank line, and `HeadAgrees` relates the two answers to one request.

The built-in answers look at the method not at all, so a `HEAD` gets their bodies too. For a file
the header is built, and nothing of it is sent: a `HEAD` gets nothing and a `GET` the content alone.
The two agree only where there is nothing to send (`headAgrees_iff`).
-/

set_option autoImplicit false

namespace FastWebServer

open Cxx

/-- `head` is `output` up to the end of its first blank line. -/
structure HeadOf (output head : Str) : Prop where
  front : head <+: output
  ends : blankLine <:+ head
  first : ∀ before, before <+: head → blankLine <:+ before → before = head

/-- An output with something behind a blank line is more than its head. -/
theorem not_headOf_self (before : Str) {body : Str} (nonempty : body ≠ []) :
    ¬ HeadOf (before ++ blankLine ++ body) (before ++ blankLine ++ body) := by
  intro head
  have whole := head.first (before ++ blankLine) (List.prefix_append _ _) (List.suffix_append _ _)
  exact nonempty (List.self_eq_append_right.mp whole)

/-- Nothing is not the head of an output. -/
theorem not_headOf_nil (output : Str) : ¬ HeadOf output [] := by
  intro head
  have none := List.suffix_nil.mp head.ends
  cases none

namespace HttpData

/-- The request with this method, and with nothing to write. -/
def asked (method : HttpMethod) (http : HttpData) : HttpData :=
  { http with httpMethod := method, bufferOut := [] }

/-- `HEAD` and `GET` succeed together, and then `HEAD` gets the head of what `GET` gets. -/
structure HeadAgrees (files : FileSystem) (http : HttpData) : Prop where
  success : ((http.asked .head).analyzeRequest files).state = .success ↔
    ((http.asked .get).analyzeRequest files).state = .success
  output : ((http.asked .get).analyzeRequest files).state = .success →
    HeadOf ((http.asked .get).analyzeRequest files).http.bufferOut
      ((http.asked .head).analyzeRequest files).http.bufferOut

variable {files : FileSystem} {http : HttpData}

theorem noteKeepAlive_faviconHeader (http : HttpData) :
    http.noteKeepAlive.faviconHeader = http.faviconHeader := by
  unfold noteKeepAlive
  split
  · rfl
  · rfl

/-- A built-in answer does not depend on the method, and has a body. -/
theorem asked_builtIn (files : FileSystem) (name : builtIn http.fileName) :
    ∃ head body, body ≠ [] ∧ ∀ method, method ≠ .post →
      ((http.asked method).analyzeRequest files).state = .success ∧
        ((http.asked method).analyzeRequest files).http.bufferOut = head ++ blankLine ++ body := by
  rcases name with hello | image
  · refine ⟨"HTTP/1.1 200 OK\r\nContent-type: text/plain".toList, "Hello World".toList, by decide,
      fun method named => ?_⟩
    have text : helloResponse =
        "HTTP/1.1 200 OK\r\nContent-type: text/plain".toList ++ blankLine ++
          "Hello World".toList := by decide
    rw [← text]
    cases method with
    | post => exact absurd rfl named
    | get | head =>
        simp only [analyzeRequest, asked, noteKeepAlive_fileName, hello, if_true, and_self]
  · have server : "Server: Svain's Fast Web Server\r\n".toList ++ crlf =
        "Server: Svain's Fast Web Server".toList ++ blankLine := by decide
    obtain ⟨head, ends⟩ : ∃ head, http.faviconHeader = head ++ blankLine := by
      unfold faviconHeader
      rw [List.append_assoc _ _ crlf, server]
      simp only [← List.append_assoc]
      exact ⟨_, rfl⟩
    have different : "favicon.ico".toList ≠ "hello".toList := by decide
    refine ⟨head, favicon, ?_, fun method named => ?_⟩
    · intro empty
      have length := length_favicon
      rw [empty] at length
      cases length
    · have header : (http.asked method).faviconHeader = http.faviconHeader := rfl
      cases method with
      | post => exact absurd rfl named
      | get | head =>
          simp only [analyzeRequest, asked, noteKeepAlive_fileName, image, different, if_true,
            if_false, noteKeepAlive_bufferOut, noteKeepAlive_faviconHeader, true_and]
          rw [List.nil_append, ← ends]
          rfl

theorem builtIn_disagrees (name : builtIn http.fileName) : ¬ HeadAgrees files http := by
  obtain ⟨head, body, nonempty, answers⟩ := asked_builtIn files name
  obtain ⟨success, get⟩ := answers .get HttpMethod.noConfusion
  intro agrees
  have output := agrees.output success
  rw [get, (answers .head HttpMethod.noConfusion).2] at output
  exact not_headOf_self head nonempty output

/-- Any other name is looked up. -/
theorem asked_file (files : FileSystem) (name : ¬ builtIn http.fileName) {method : HttpMethod}
    (named : method ≠ .post) :
    (http.asked method).analyzeRequest files =
      (http.asked method).noteKeepAlive.serveFile files := by
  have hello : http.fileName ≠ "hello".toList := fun same => name (.inl same)
  have image : http.fileName ≠ "favicon.ico".toList := fun same => name (.inr same)
  cases method with
  | post => exact absurd rfl named
  | get | head =>
      simp only [analyzeRequest, asked, noteKeepAlive_fileName, hello, image, if_false]

/-- `HEAD` of a file that is there succeeds, and gets nothing. -/
theorem head_empty {size : ℕ} (name : ¬ builtIn http.fileName)
    (found : files.stat (cStr http.fileName) = some size) :
    ((http.asked .head).analyzeRequest files).state = .success ∧
      ((http.asked .head).analyzeRequest files).http.bufferOut = [] := by
  have fileName : (http.asked .head).fileName = http.fileName := rfl
  have method : (http.asked .head).httpMethod = .head := rfl
  rw [asked_file files name HttpMethod.noConfusion, serveFile, noteKeepAlive_fileName, fileName,
    found]
  dsimp only
  rw [if_pos (by rw [noteKeepAlive_httpMethod, method])]
  exact ⟨rfl, noteKeepAlive_bufferOut _⟩

/-- A file that is not there is reported for both methods. -/
theorem asked_missing {method : HttpMethod} (named : method ≠ .post)
    (name : ¬ builtIn http.fileName) (missing : files.stat (cStr http.fileName) = none) :
    ((http.asked method).analyzeRequest files).state = .error := by
  have fileName : (http.asked method).fileName = http.fileName := rfl
  rw [asked_file files name named, serveFile, noteKeepAlive_fileName, fileName, missing]

/-- **`HEAD` agrees with `GET` exactly where both fail**: the name is not built in, and there is no
such file. -/
theorem headAgrees_iff (files : FileSystem) (http : HttpData) :
    HeadAgrees files http ↔ ¬ builtIn http.fileName ∧ files.stat (cStr http.fileName) = none := by
  constructor
  · intro agrees
    have name : ¬ builtIn http.fileName := fun name => builtIn_disagrees name agrees
    refine ⟨name, ?_⟩
    cases found : files.stat (cStr http.fileName) with
    | none => rfl
    | some size =>
        obtain ⟨success, empty⟩ := head_empty name found
        have output := agrees.output (agrees.success.mp success)
        rw [empty] at output
        exact absurd output (not_headOf_nil _)
  · rintro ⟨name, missing⟩
    have head := @asked_missing files http .head HttpMethod.noConfusion name missing
    have get := @asked_missing files http .get HttpMethod.noConfusion name missing
    refine ⟨by rw [head, get], fun success => ?_⟩
    rw [get] at success
    cases success

/-- A `HEAD` of the file of two letters adds nothing to the output, where a `GET` adds the
letters. -/
theorem headNotes_disagrees :
    ((getNotes.asked .head).analyzeRequest (lettersOnly 2)).http.bufferOut = [] ∧
      ((getNotes.asked .get).analyzeRequest (lettersOnly 2)).http.bufferOut = "aa".toList ∧
      ¬ HeadAgrees (lettersOnly 2) getNotes := by
  refine ⟨rfl, rfl, fun agrees => ?_⟩
  exact not_headOf_nil _ (agrees.output rfl)

end HttpData

end FastWebServer
