import FastWebServer.Http.Data

/-!
# The request line

`parse_URI` cuts the request line off `buffer_in_` and reads the method, the file
name and the version out of it. Every search answers a `size_t`, so a test that
a position is below zero never holds, and `npos` takes part in the arithmetic
that follows.

The line is all that is read: what comes after it stays in the buffer
(`parseURI_line`).
-/

set_option autoImplicit false

namespace FastWebServer

open Cxx

/-- A position as an `int`, tested for being found. -/
def found (position : ℕ) : Bool := 0 ≤ toInt position

namespace HttpData

/-- The version, which is read after the next `/` from `cur` on. -/
def parseVersion (http : HttpData) (requestLine : Str) (cur : ℕ) :
    Except Fault (URIState × HttpData) :=
  let cur := find requestLine '/' cur
  if cur < 0 then .ok (.error, http)
  else if sizeSub requestLine.length cur ≤ 3 then .ok (.error, http)
  else
    match substr requestLine (sizeAdd cur 1) 3 with
    | .error fault => .error fault
    | .ok version =>
        if version = "1.0".toList then .ok (.success, { http with httpVersion := .http10 })
        else if version = "1.1".toList then .ok (.success, { http with httpVersion := .http11 })
        else .ok (.error, http)

/-- The file name: the target between `cur` and the space at `cur'`, up to its
first question mark. -/
def parseFileName (requestLine : Str) (cur cur' : ℕ) : Except Fault Str :=
  if 1 < sizeSub cur' cur then
    match substr requestLine (sizeAdd cur 1) (sizeSub (sizeSub cur' cur) 1) with
    | .error fault => .error fault
    -- `npos` is a count here: without a question mark nothing is cut off
    | .ok target => substr target 0 (find target '?' 0)
  else .ok "index.html".toList

/-- The target, which is read after the first `/` from `cur` on. -/
def parseTarget (http : HttpData) (requestLine : Str) (cur : ℕ) :
    Except Fault (URIState × HttpData) :=
  let cur := find requestLine '/' cur
  if cur < 0 then
    .ok (.success, { http with fileName := "index.html".toList, httpVersion := .http11 })
  else
    let cur' := find requestLine ' ' cur
    if cur' < 0 then .ok (.error, http)
    else
      match parseFileName requestLine cur cur' with
      | .error fault => .error fault
      | .ok fileName => parseVersion { http with fileName := fileName } requestLine cur'

/-- The method, and what is read after it. -/
def parseRequestLine (http : HttpData) (requestLine : Str) :
    Except Fault (URIState × HttpData) :=
  let curGet := findStr "GET".toList requestLine 0
  let curPost := findStr "POST".toList requestLine 0
  let curHead := findStr "HEAD".toList requestLine 0
  if found curGet then
    parseTarget { http with httpMethod := .get } requestLine (toSize (toInt curGet))
  else if found curPost then
    parseTarget { http with httpMethod := .post } requestLine (toSize (toInt curPost))
  else if found curHead then
    parseTarget { http with httpMethod := .head } requestLine (toSize (toInt curHead))
  else .ok (.error, http)

/-- The buffer without the request line that ends at `cur`. -/
def afterRequestLine (bufferIn : Str) (cur : ℕ) : Except Fault Str :=
  if sizeAdd cur 1 < bufferIn.length then substrFrom bufferIn (sizeAdd cur 1) else .ok []

/-- `parse_URI`. -/
def parseURI (http : HttpData) : Except Fault (URIState × HttpData) :=
  let cur := find http.bufferIn '\r' (toSize http.readCur)
  if cur < 0 then .ok (.again, http)
  else
    match substr http.bufferIn 0 cur, afterRequestLine http.bufferIn cur with
    | .ok requestLine, .ok rest => parseRequestLine { http with bufferIn := rest } requestLine
    | .error fault, _ => .error fault
    | .ok _, .error fault => .error fault

/-! ## What follows the line -/

/-- The buffer after a line that a carriage return ends. -/
theorem afterRequestLine_append {line rest : Str} (bound : line.length + 1 < 2 ^ 64) :
    afterRequestLine (line ++ '\r' :: rest) line.length = .ok rest := by
  have next : sizeAdd line.length 1 = line.length + 1 := by
    unfold sizeAdd
    omega
  unfold afterRequestLine
  rw [next]
  split
  · rw [substrFrom_of_le (by simp)]
    simp
  · rename_i short
    cases rest with
    | nil => rfl
    | cons c rest => simp at short

/-- **The request line is read alone.** What follows its carriage return is left
in the buffer. -/
theorem parseURI_line {http : HttpData} {line rest : Str} (start : http.readCur = 0)
    (buffer : http.bufferIn = line ++ '\r' :: rest) (absent : '\r' ∉ line)
    (bound : line.length + 1 < 2 ^ 64) :
    http.parseURI = parseRequestLine { http with bufferIn := rest } line := by
  have position : find http.bufferIn '\r' (toSize http.readCur) = line.length := by
    rw [start, buffer]
    exact find_zero_append absent
  simp only [parseURI, position]
  simp [buffer, afterRequestLine_append bound, substr]

end HttpData

end FastWebServer
