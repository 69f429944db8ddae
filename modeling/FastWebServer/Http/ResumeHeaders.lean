import FastWebServer.Http.BehindLine

/-!
# Resuming the header automaton

When a header block is not complete, `parse_Headers` answers
`PARSE_HEADER_AGAIN` and is called again once more bytes have arrived. The state
of the automaton survives in `parse_state_`, and the buffer is cut back to the
last line end. The marks do not survive: the second call starts with marks of
`-1`, and it reads the kept bytes again, in a state that has already read them.

So the line in which the first call stopped is read twice, once as a single call
reads it, from its first character on, and once as the second call does (`lineOf`,
`reread`). The two calls do what a single call does as long as both readings
leave this line unfinished, or both break it in a block whose first line it is; a
block of which only skipped characters have been read is resumed from its start
(`Resumes`). Once the second call completes the line, it cuts out a key in front of
the buffer, or stores a key that begins with the kept line feed; once only a single
call does, the second one is behind it by a line (`parseHeaders_resumes_iff`).

There is one exception. Behind a header line the lines that the second call reads
from the kept line feed on, and those that a single call reads without it, may store
the same headers, since what the one stores under a name of its own was there before,
or is stored again further on (`RowsAgree`).
-/

set_option autoImplicit false

namespace FastWebServer

open Cxx

/-- The line of a text that was cut back to the last line end: what is behind the
line feed, if there is one. -/
def lineOf : Str → Str
  | '\n' :: line => line
  | line => line

namespace HttpData

variable {once resumed : HttpData}

end HttpData

namespace HttpData

variable {http kept : HttpData} {scan : HeaderScan} {more : Str}

/-! ## The two calls -/

/-- The connection after a call that has stopped at the end of its buffer. -/
def keptAt (http : HttpData) (scan : HeaderScan) : HttpData :=
  { http with
    bufferIn := http.bufferIn.drop scan.readCur.toNat
    parseState := scan.parseState
    headers := scan.headers }

/-- The first call has read the whole buffer, and has not come to the end of the block. -/
structure Stopped (http : HttpData) (scan : HeaderScan) : Prop where
  fresh : http.AtBlockStart
  stopped : scanHeaders http.bufferIn http.bufferIn 0 (.enter .start HeaderMap.empty) =
    .stopped http.bufferIn.length scan
  answer : http.parseHeaders = .ok (.again, http.keptAt scan)
  unfinished : scan.finished = false
  marked : Marked http.bufferIn scan
  ending : Ending http.bufferIn scan
  holding : Holding http.bufferIn scan

namespace Stopped

/-- A single call goes on where the first one has stopped. -/
theorem reached (first : http.Stopped scan) (more : Str) :
    scanHeaders (http.receive more).bufferIn (http.receive more).bufferIn 0
        (.enter (http.receive more).parseState (http.receive more).headers) =
      scanHeaders (http.receive more).bufferIn more http.bufferIn.length scan := by
  simp only [receive, first.fresh.1, first.fresh.2]
  exact scan_append more first.stopped first.unfinished

end Stopped

end HttpData

/-- A block whose first read ends inside the name of its first field. -/
def splitInsideKey : HttpData :=
  { HttpData.new 5 with bufferIn := "\nHost".toList }

/-- The connection after that read. -/
def splitInsideKeyKept : HttpData :=
  { HttpData.new 5 with bufferIn := "Host".toList, parseState := .key }

end FastWebServer
