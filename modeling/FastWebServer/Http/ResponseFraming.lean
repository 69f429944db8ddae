import FastWebServer.Http.AnalyzeRequest

/-!
# The framing of a response

`HttpResponse` is a message that a client can take apart: a status line, header
lines that are not empty and contain no line end, and a body as long as the
`Content-Length` line says. Its `render` is the message as bytes.

A successful `GET` adds one such message to `buffer_out_` exactly when the name is
`favicon.ico` (`getResponse_framed_iff`). The response to `hello` has no
`Content-Length` line and replaces what was pending (`hello_unframed`). A file is
added without the header that was built for it, so there is nothing before the
body (`file_unframed`).
-/

set_option autoImplicit false

namespace FastWebServer

open Cxx

/-- A text without a line end. -/
def OneLine (text : Str) : Prop := '\r' ∉ text ∧ '\n' ∉ text

instance (text : Str) : Decidable (OneLine text) := by
  unfold OneLine
  infer_instance

/-- The header line that gives the length of a body. -/
def contentLengthLine (length : ℕ) : Str := "Content-Length: ".toList ++ decimal length

/-- A well-formed response. -/
structure HttpResponse where
  statusLine : Str
  lines : List Str
  body : Str
  status : "HTTP/1.1 ".toList <+: statusLine ∧ OneLine statusLine
  wellFormed : ∀ line ∈ lines, line ≠ [] ∧ OneLine line
  framed : contentLengthLine body.length ∈ lines

namespace HttpResponse

/-- The message as bytes. -/
def render (response : HttpResponse) : Str :=
  response.statusLine ++ crlf ++ response.lines.flatMap (· ++ crlf) ++ crlf ++ response.body

theorem body_lt_render (response : HttpResponse) :
    response.body.length < response.render.length := by
  simp only [render, List.length_append, crlf, List.length_cons, List.length_nil]
  omega

/-- Every header line is a part of the message. -/
theorem isInfix_line {response : HttpResponse} {line : Str} (member : line ∈ response.lines) :
    line <:+: response.render := by
  obtain ⟨before, after, lines⟩ := List.append_of_mem member
  refine ⟨response.statusLine ++ crlf ++ before.flatMap (· ++ crlf),
    crlf ++ after.flatMap (· ++ crlf) ++ crlf ++ response.body, ?_⟩
  simp only [render, lines, List.flatMap_append, List.flatMap_cons, List.append_assoc]

/-- A message names the length of its body. -/
theorem isInfix_contentLength (response : HttpResponse) :
    "Content-Length: ".toList <:+: response.render :=
  (List.prefix_append _ _).isInfix.trans (isInfix_line response.framed)

end HttpResponse

/-- The bytes of the file of a name. -/
def FileSystem.content (files : FileSystem) (fileName : Str) : Option Str :=
  (files.stat (cStr fileName)).bind fun size =>
    (files.mmap (cStr fileName) size).map (·.val)

/-- The names that are not looked up in the file system. -/
def builtIn (fileName : Str) : Prop :=
  fileName = "hello".toList ∨ fileName = "favicon.ico".toList

instance (fileName : Str) : Decidable (builtIn fileName) := by
  unfold builtIn
  infer_instance

/-- The output grew by exactly one response, and the body of that response is the
content of the file when a file was asked for. -/
def AddsOneResponse (files : FileSystem) (before after : HttpData) : Prop :=
  ∃ response : HttpResponse, after.bufferOut = before.bufferOut ++ response.render ∧
    (¬ builtIn before.fileName → files.content before.fileName = some response.body)

namespace HttpData

@[simp] theorem noteKeepAlive_fileName (http : HttpData) :
    http.noteKeepAlive.fileName = http.fileName := by
  unfold noteKeepAlive
  split <;> rfl

@[simp] theorem noteKeepAlive_bufferOut (http : HttpData) :
    http.noteKeepAlive.bufferOut = http.bufferOut := by
  unfold noteKeepAlive
  split <;> rfl

@[simp] theorem noteKeepAlive_httpMethod (http : HttpData) :
    http.noteKeepAlive.httpMethod = http.httpMethod := by
  unfold noteKeepAlive
  split <;> rfl

/-- The lines of the response to `favicon.ico`. -/
def faviconLines (http : HttpData) : List Str :=
  (if http.wantsKeepAlive then
      ["Connection: Keep-Alive".toList, "Keep-Alive: timeout=".toList ++ decimal defaultKeepAliveTime]
    else []) ++
  ["Content-Type: image/png".toList, contentLengthLine favicon.length,
    "Server: Svain's Fast Web Server".toList]

theorem faviconLines_wellFormed (http : HttpData) :
    ∀ line ∈ http.faviconLines, line ≠ [] ∧ OneLine line := by
  rw [faviconLines, length_favicon]
  cases http.wantsKeepAlive <;> decide

/-- **The image is sent as a well-formed response.** -/
def faviconResponse (http : HttpData) : HttpResponse where
  statusLine := "HTTP/1.1 200 OK".toList
  lines := http.faviconLines
  body := favicon
  status := by decide
  wellFormed := faviconLines_wellFormed http
  framed := List.mem_append_right _ (List.mem_cons_of_mem _ (List.mem_cons_self ..))

theorem faviconResponse_render (http : HttpData) :
    http.faviconResponse.render = http.faviconHeader ++ favicon := by
  have status : "HTTP/1.1 200 OK\r\n".toList = "HTTP/1.1 200 OK".toList ++ crlf := by decide
  have connection : "Connection: Keep-Alive\r\n".toList =
      "Connection: Keep-Alive".toList ++ crlf := by decide
  have type : "Content-Type: image/png\r\n".toList =
      "Content-Type: image/png".toList ++ crlf := by decide
  have server : "Server: Svain's Fast Web Server\r\n".toList =
      "Server: Svain's Fast Web Server".toList ++ crlf := by decide
  show "HTTP/1.1 200 OK".toList ++ crlf ++ http.faviconLines.flatMap (· ++ crlf) ++ crlf ++
    favicon = _
  unfold faviconLines faviconHeader responseHead contentLengthLine
  rw [status, connection, type, server]
  cases http.wantsKeepAlive with
  | false =>
      rw [if_neg Bool.false_ne_true, if_neg Bool.false_ne_true]
      simp only [List.flatMap_cons, List.flatMap_nil, List.nil_append, List.append_nil,
        List.append_assoc]
  | true =>
      rw [if_pos rfl, if_pos rfl]
      simp only [List.cons_append, List.flatMap_cons, List.flatMap_nil, List.nil_append,
        List.append_nil, List.append_assoc]

/-- **The response to `hello` is not framed**: it does not say how long it is. -/
theorem hello_unframed (before : Str) (response : HttpResponse) :
    helloResponse ≠ before ++ response.render := by
  intro same
  -- no letter of the fixed text is a capital `L`
  have letter : 'L' ∈ before ++ response.render :=
    List.mem_append_right _ (response.isInfix_contentLength.subset (by decide))
  rw [← same] at letter
  exact absurd letter (by decide)

/-- **A file is not framed**: its content is all that is added. -/
theorem file_unframed {files : FileSystem} {http : HttpData} (get : http.httpMethod = .get)
    (name : ¬ builtIn http.fileName) (success : (http.serveFile files).state = .success) :
    ¬ AddsOneResponse files http (http.serveFile files).http := by
  rintro ⟨response, grown, content⟩
  have content := content name
  simp only [FileSystem.content, Option.bind_eq_some_iff, Option.map_eq_some_iff] at content
  obtain ⟨size, stat, mapped, mmap, body⟩ := content
  simp only [serveFile, stat, get, mmap] at success grown
  cases opened : files.openRead (cStr http.fileName) with
  | false => simp [opened] at success
  | true =>
      simp only [opened, reduceCtorEq, if_false, if_true, List.append_cancel_left_eq] at grown
      have longer := response.body_lt_render
      rw [← grown, body] at longer
      exact absurd longer (lt_irrefl _)

/-- **A successful `GET` adds exactly one well-formed response if and only if it
asks for the built-in image.** -/
theorem getResponse_framed_iff {files : FileSystem} {http : HttpData}
    (get : http.httpMethod = .get) (success : (http.analyzeRequest files).state = .success) :
    AddsOneResponse files http (http.analyzeRequest files).http ↔
      http.fileName = "favicon.ico".toList := by
  unfold analyzeRequest at success ⊢
  simp only [get, noteKeepAlive_fileName] at success ⊢
  by_cases hello : http.fileName = "hello".toList
  · simp only [hello, if_true]
    constructor
    · rintro ⟨response, grown, -⟩
      exact absurd grown (hello_unframed _ _)
    · intro same
      exact absurd same (by decide)
  · simp only [hello, if_false] at success ⊢
    by_cases image : http.fileName = "favicon.ico".toList
    · simp only [image, if_true, iff_true]
      refine ⟨http.noteKeepAlive.faviconResponse, ?_, fun name => absurd (.inr image) name⟩
      simp only [noteKeepAlive_bufferOut, List.append_assoc, faviconResponse_render]
    · simp only [image, if_false, iff_false] at success ⊢
      have name : ¬ builtIn http.noteKeepAlive.fileName := by
        rw [noteKeepAlive_fileName]
        exact fun named => named.elim hello image
      have method : http.noteKeepAlive.httpMethod = .get := by rw [noteKeepAlive_httpMethod, get]
      rintro ⟨response, grown, content⟩
      refine file_unframed method name success ⟨response, ?_, ?_⟩
      · rw [noteKeepAlive_bufferOut]
        exact grown
      · rw [noteKeepAlive_fileName]
        exact content

end HttpData

/-- A file system in which every name is a file of `size` letters. -/
def lettersOnly (size : ℕ) : FileSystem where
  stat := fun _ => some size
  openRead := fun _ => true
  mmap := fun _ length => some ⟨List.replicate length 'a', List.length_replicate⟩

/-- A request for a file. -/
def getNotes : HttpData := { HttpData.new 5 with fileName := "notes.txt".toList }

/-- The file of two letters is sent as these two letters, with no header. -/
theorem getNotes_unframed :
    (getNotes.analyzeRequest (lettersOnly 2)).state = .success ∧
      (getNotes.analyzeRequest (lettersOnly 2)).http.bufferOut = "aa".toList ∧
      ¬ AddsOneResponse (lettersOnly 2) getNotes (getNotes.analyzeRequest (lettersOnly 2)).http :=
  ⟨rfl, rfl, HttpData.file_unframed rfl (by decide) rfl⟩

/-- A request for the built-in image. -/
def getFavicon : HttpData := { HttpData.new 5 with fileName := "favicon.ico".toList }

/-- The image is framed, the file is not. -/
theorem getFavicon_framed :
    AddsOneResponse (lettersOnly 2) getFavicon (getFavicon.analyzeRequest (lettersOnly 2)).http ∧
      ¬ AddsOneResponse (lettersOnly 2) getNotes
        (getNotes.analyzeRequest (lettersOnly 2)).http := by
  refine ⟨(HttpData.getResponse_framed_iff rfl rfl).2 rfl, fun framed => ?_⟩
  exact absurd ((HttpData.getResponse_framed_iff rfl rfl).1 framed) (by decide)

end FastWebServer
