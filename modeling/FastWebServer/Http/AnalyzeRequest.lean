import FastWebServer.Http.Data

/-!
# Answering a request

`analyze_request` answers a parsed request: the name `hello` with a fixed text,
`favicon.ico` with a built-in image, any other name with the file of that name.
Whatever goes wrong with a file is reported through `handle_error`.

The file system is what the three system calls answer. A mapping carries the
proof that it is as long as was asked for.

A call of `handle_error` touches the socket only, so `analyzeRequest` says which
call it makes, and the connection makes it (`Analysis.report`). The local string
`header` is kept in the result too, because on the way to a file it is built in
full and then not used.
-/

set_option autoImplicit false

namespace FastWebServer

open Cxx

/-! ## Texts -/

def crlf : Str := ['\r', '\n']

/-- The built-in image. -/
@[irreducible] def favicon : Str :=
  ([
    137, 80, 78, 71, 13, 10, 26, 10, 0, 0, 0, 13, 73, 72, 68, 82, 0, 0, 0, 16, 0, 0, 0, 16, 8,
    6, 0, 0, 0, 31, 243, 255, 97, 0, 0, 0, 25, 116, 69, 88, 116, 83, 111, 102, 116, 119, 97,
    114, 101, 0, 65, 100, 111, 98, 101, 32, 73, 109, 97, 103, 101, 82, 101, 97, 100, 121, 113,
    201, 101, 60, 0, 0, 1, 205, 73, 68, 65, 84, 120, 218, 148, 147, 57, 72, 3, 65, 20, 134,
    255, 93, 98, 167, 4, 82, 196, 109, 34, 30, 160, 70, 36, 8, 22, 22, 118, 10, 54, 186, 74,
    154, 128, 8, 65, 180, 113, 133, 88, 137, 71, 176, 73, 169, 81, 36, 205, 166, 8, 164, 72,
    99, 145, 66, 11, 175, 86, 193, 70, 180, 21, 207, 34, 88, 152, 11, 84, 72, 138, 100, 147,
    141, 251, 70, 103, 201, 26, 20, 125, 240, 102, 118, 102, 223, 124, 239, 231, 103, 70, 168,
    213, 106, 72, 36, 18, 42, 0, 5, 191, 71, 212, 239, 247, 47, 54, 236, 18, 32, 30, 143, 215,
    170, 213, 234, 175, 73, 53, 70, 170, 84, 95, 159, 34, 65, 42, 149, 10, 131, 229, 114, 57,
    100, 179, 89, 150, 153, 76, 6, 233, 116, 154, 37, 133, 44, 203, 84, 167, 196, 98, 49, 181,
    94, 0, 3, 104, 154, 198, 22, 130, 32, 88, 82, 20, 69, 54, 83, 148, 203, 101, 120, 189, 94,
    170, 85, 84, 35, 76, 192, 224, 226, 193, 143, 0, 158, 188, 9, 65, 124, 62, 31, 131, 68, 34,
    17, 213, 84, 64, 63, 56, 128, 119, 229, 51, 7, 184, 92, 46, 72, 146, 4, 135, 195, 129, 64,
    32, 64, 103, 152, 233, 54, 26, 166, 103, 21, 4, 227, 215, 200, 189, 21, 225, 105, 183, 67,
    171, 234, 120, 47, 106, 88, 146, 187, 24, 32, 159, 207, 51, 195, 184, 233, 78, 167, 211,
    108, 74, 0, 105, 54, 124, 142, 225, 254, 86, 132, 231, 60, 159, 114, 43, 58, 66, 123, 55,
    102, 119, 174, 142, 14, 243, 189, 82, 169, 100, 2, 66, 175, 133, 50, 102, 70, 186, 12, 217,
    159, 29, 154, 108, 34, 230, 199, 58, 44, 128, 239, 193, 21, 144, 7, 147, 162, 40, 160, 83,
    106, 177, 184, 223, 41, 53, 67, 14, 63, 88, 252, 152, 218, 121, 106, 80, 64, 0, 135, 174,
    27, 23, 66, 180, 58, 63, 190, 121, 199, 10, 38, 182, 238, 217, 154, 96, 20, 147, 219, 143,
    13, 10, 46, 233, 35, 149, 41, 88, 0, 39, 235, 110, 86, 112, 188, 214, 203, 214, 71, 171,
    61, 108, 125, 184, 210, 221, 160, 96, 131, 186, 239, 95, 164, 234, 204, 2, 78, 174, 94,
    112, 26, 236, 179, 64, 57, 172, 254, 242, 145, 137, 103, 145, 133, 33, 168, 135, 183, 88,
    126, 126, 133, 187, 205, 78, 78, 98, 116, 64, 250, 147, 137, 236, 30, 236, 134, 2, 72, 38,
    147, 208, 117, 29, 127, 9, 50, 149, 191, 31, 219, 215, 99, 138, 26, 247, 92, 193, 255, 34,
    74, 195, 135, 0, 3, 0, 75, 187, 248, 214, 42, 118, 152, 73, 0, 0, 0, 0, 73, 69, 78, 68,
    174, 66, 96, 130] : List ℕ).map Char.ofNat

set_option maxRecDepth 4000 in
/-- `sizeof favicon`. -/
theorem length_favicon : favicon.length = 555 := by
  rw [favicon, List.length_map]
  rfl

/-- The table that `MimeType::init` fills. -/
def mime : List (Str × Str) :=
  [(".html".toList, "text/html".toList),
    (".avi".toList, "video/x-msvideo".toList),
    (".bmp".toList, "image/bmp".toList),
    (".c".toList, "text/plain".toList),
    (".doc".toList, "application/msword".toList),
    (".gif".toList, "image/gif".toList),
    (".gz".toList, "application/x-gzip".toList),
    (".htm".toList, "text/html".toList),
    (".ico".toList, "image/x-icon".toList),
    (".jpg".toList, "image/jpeg".toList),
    (".png".toList, "image/png".toList),
    (".txt".toList, "text/plain".toList),
    (".mp3".toList, "audio/mp3".toList),
    ("default".toList, "text/html".toList)]

/-- `MimeType::get_mime`. -/
def getMime (suffix : Str) : Str :=
  match mime.lookup suffix with
  | some value => value
  | none => "text/html".toList

/-- The type of a file, by the part of its name from the first dot on. -/
def fileType (fileName : Str) : Str :=
  let dotPosition := toInt (find fileName '.' 0)
  if dotPosition < 0 then getMime "default".toList
  else getMime (fileName.drop (toSize dotPosition))

/-- A call of `handle_error`: the status code and the short message. -/
structure ErrorReport where
  code : ℕ
  message : Str
deriving Repr, DecidableEq

/-- The title of the error page, as the bytes of the source file. -/
def errorTitle : Str :=
  ([0xe5, 0x91, 0x80, 0x7e, 0xe8, 0xae, 0xbf, 0xe9, 0x97, 0xae, 0xe5, 0x87, 0xba, 0xe9, 0x94,
    0x99, 0xe4, 0xba, 0x86] : List ℕ).map Char.ofNat

/-- `body_buffer` of `handle_error`. -/
def ErrorReport.body (report : ErrorReport) : Str :=
  "<html><title>".toList ++ errorTitle ++ "</title>".toList ++
    "<body bgcolor=\"ffffff\">".toList ++
    (decimal report.code ++ " ".toList ++ report.message) ++
    "<hr><em> Svain's Fast Web Server</em>\n</body></html>".toList

/-- `header_buffer` of `handle_error`. -/
def ErrorReport.header (report : ErrorReport) : Str :=
  "HTTP/1.1 ".toList ++ decimal report.code ++ " ".toList ++ report.message ++ crlf ++
    "Content-Type: text/html\r\n".toList ++
    "Connection: Close\r\n".toList ++
    "Content-Length: ".toList ++ decimal report.body.length ++ crlf ++
    "Server: Svain's Fast Web Server\r\n".toList ++
    crlf

/-- The report of a file that cannot be served. -/
def notFound : ErrorReport := ⟨404, "Not Found!!!".toList⟩

/-- The report of a request that cannot be read. -/
def badRequest : ErrorReport := ⟨400, "Bad Request!!!".toList⟩

/-- The report of a `POST` without the length of its body. -/
def lackOfContentLength : ErrorReport := ⟨400, "Bad Request: Lock of Content-length".toList⟩

/-! ## The file system -/

/-- What `stat`, `open` and `mmap` answer: the size of a file, whether it can be
opened, and its content over a number of bytes. -/
structure FileSystem where
  stat : Str → Option ℕ
  openRead : Str → Bool
  mmap : Str → (size : ℕ) → Option { content : Str // content.length = size }

/-! ## analyze_request -/

/-- What `analyze_request` leaves behind. -/
structure Analysis where
  state : AnalysisState
  http : HttpData
  header : Str
  report : Option ErrorReport

namespace HttpData

/-- Whether the request asks to keep the connection. -/
def wantsKeepAlive (http : HttpData) : Bool :=
  match http.headers "Connection".toList with
  | some value => value == "Keep-Alive".toList || value == "keep-alive".toList
  | none => false

/-- The assignment of `keep_alive_`. -/
def noteKeepAlive (http : HttpData) : HttpData :=
  if http.wantsKeepAlive then { http with keepAlive := true } else http

/-- The status line, and the lines that keep the connection. -/
def responseHead (http : HttpData) : Str :=
  "HTTP/1.1 200 OK\r\n".toList ++
    if http.wantsKeepAlive then
      "Connection: Keep-Alive\r\n".toList ++
        ("Keep-Alive: timeout=".toList ++ decimal defaultKeepAliveTime ++ crlf)
    else []

/-- The response to `hello`. -/
def helloResponse : Str :=
  "HTTP/1.1 200 OK\r\nContent-type: text/plain\r\n\r\nHello World".toList

/-- The header of the response to `favicon.ico`. -/
def faviconHeader (http : HttpData) : Str :=
  http.responseHead ++
    ("Content-Type: image/png\r\n".toList ++
      ("Content-Length: ".toList ++ decimal favicon.length ++ crlf) ++
      "Server: Svain's Fast Web Server\r\n".toList ++
      crlf)

/-- The header of the response with a file of `size` bytes. -/
def fileHeader (http : HttpData) (size : ℕ) : Str :=
  http.responseHead ++
    (("Content-Type: ".toList ++ fileType http.fileName ++ crlf) ++
      ("Content-Length: ".toList ++ decimal size ++ crlf) ++
      "Server: Svain's Fast Web Server\r\n".toList ++
      crlf)

/-- The part of `analyze_request` that serves a file. -/
def serveFile (files : FileSystem) (http : HttpData) : Analysis :=
  match files.stat (cStr http.fileName) with
  | none => ⟨.error, http, [], some notFound⟩
  | some size =>
      let header := http.fileHeader size
      if http.httpMethod = .head then ⟨.success, http, header, none⟩
      else if files.openRead (cStr http.fileName) then
        match files.mmap (cStr http.fileName) size with
        | none => ⟨.error, { http with bufferOut := [] }, header, some notFound⟩
        | some content =>
            ⟨.success, { http with bufferOut := http.bufferOut ++ content.val }, header, none⟩
      else ⟨.error, { http with bufferOut := [] }, header, some notFound⟩

/-- `analyze_request`. -/
def analyzeRequest (files : FileSystem) (http : HttpData) : Analysis :=
  match http.httpMethod with
  | .post => ⟨.error, http, [], none⟩
  | .get | .head =>
      let http := http.noteKeepAlive
      if http.fileName = "hello".toList then
        -- an assignment, where the other answers append
        ⟨.success, { http with bufferOut := helloResponse }, http.responseHead, none⟩
      else if http.fileName = "favicon.ico".toList then
        ⟨.success, { http with bufferOut := http.bufferOut ++ http.faviconHeader ++ favicon },
          http.faviconHeader, none⟩
      else http.serveFile files

end HttpData

end FastWebServer
