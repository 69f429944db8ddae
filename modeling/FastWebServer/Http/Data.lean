import Mathlib.Logic.Function.Basic
import FastWebServer.Library.CxxString

/-!
# The data of a connection

The enumerations, constants and members of `HttpData.h`, `HttpData.cpp`,
`Channel.h` and `Channel.cpp`. A connection is an `HttpData` with the `Channel`
it owns. The channel carries the event masks: `events_` is what the handlers ask
for, `revents_` what the kernel reported, and `last_events_` the mask last handed
to the kernel.

The functions that a channel calls back are fixed by the constructor of
`HttpData` and never set again, so they are not part of the state: they are the
constant `HttpData.callbacks`.
-/

set_option autoImplicit false

namespace FastWebServer

open Cxx

/-! ## Enumerations -/

/-- Where the processing of a request stands. -/
inductive ProcessState where
  | parseURI
  | parseHeaders
  | recvBody
  | analysis
  | finish
deriving Repr, DecidableEq

inductive URIState where
  | again
  | error
  | success
deriving Repr, DecidableEq

inductive HeaderState where
  | success
  | again
  | error
deriving Repr, DecidableEq

inductive AnalysisState where
  | success
  | error
deriving Repr, DecidableEq

inductive ConnectionState where
  | connected
  | disconnecting
  | disconnected
deriving Repr, DecidableEq

/-- The states of the header automaton. -/
inductive ParseState where
  | start
  | key
  | colon
  | spacesAfterColon
  | value
  | cr
  | lf
  | endCr
  | endLf
deriving Repr, DecidableEq

inductive HttpMethod where
  | post
  | get
  | head
deriving Repr, DecidableEq

inductive HttpVersion where
  | http10
  | http11
deriving Repr, DecidableEq

/-! ## Event masks -/

/-- A set of epoll events, as the `__uint32_t` the kernel uses. -/
abbrev Mask := BitVec 32

def epollIn : Mask := 0x001#32
def epollPri : Mask := 0x002#32
def epollOut : Mask := 0x004#32
def epollErr : Mask := 0x008#32
def epollHup : Mask := 0x010#32
def epollRdhup : Mask := 0x2000#32
def epollOneshot : Mask := 0x40000000#32
def epollEt : Mask := 0x80000000#32

/-- `mask & bits`, read as a condition. -/
def Mask.meets (mask bits : Mask) : Bool := mask &&& bits != 0#32

/-- `DEFAULT_EVENT`. -/
def defaultEvent : Mask := epollIn ||| epollEt ||| epollOneshot

/-- `DEFAULT_EXPIRED_TIME`, in milliseconds. -/
def defaultExpiredTime : ℕ := 2000

/-- `DEFAULT_KEEP_ALIVE_TIME`, in milliseconds. -/
def defaultKeepAliveTime : ℕ := 5 * 60 * 1000

/-! ## Channels and connections -/

/-- A file descriptor. -/
abbrev Fd := ℕ

/-- The identity of a timer, which is what a `weak_ptr<Timer>` remembers. -/
abbrev TimerId := ℕ

structure Channel where
  fd : Fd
  events : Mask
  revents : Mask
  lastEvents : Mask
deriving Repr, DecidableEq

/-- The constructor `Channel(event_loop, fd)`. It leaves `revents_` without a
value; no mask is read before `set_revents` has stored one. -/
def Channel.new (fd : Fd) : Channel :=
  { fd := fd, events := 0#32, revents := 0#32, lastEvents := 0#32 }

/-- Whether `events_` is the mask last handed to the kernel. -/
def Channel.equalLastEvents (channel : Channel) : Bool := channel.events == channel.lastEvents

/-- The assignment of `equal_and_update_last_events`. -/
def Channel.updateLastEvents (channel : Channel) : Channel :=
  { channel with lastEvents := channel.events }

/-- The fields of a request, by name: `map<string, string>` as the function
that `find` computes. -/
abbrev HeaderMap := Str → Option Str

/-- The map without entries. -/
def HeaderMap.empty : HeaderMap := fun _ => none

/-- `headers_[key] = value`. -/
def HeaderMap.store (headers : HeaderMap) (key value : Str) : HeaderMap :=
  Function.update headers key (some value)

structure HttpData where
  fd : Fd
  channel : Channel
  bufferIn : Str
  bufferOut : Str
  isError : Bool
  fileName : Str
  readCur : ℤ
  keepAlive : Bool
  headers : HeaderMap
  timer : Option TimerId
  connectionState : ConnectionState
  httpMethod : HttpMethod
  httpVersion : HttpVersion
  processState : ProcessState
  parseState : ParseState

/-- The constructor of `HttpData`. -/
def HttpData.new (fd : Fd) : HttpData :=
  { fd := fd
    channel := Channel.new fd
    bufferIn := []
    bufferOut := []
    isError := false
    fileName := []
    readCur := 0
    keepAlive := false
    headers := HeaderMap.empty
    timer := none
    connectionState := .connected
    httpMethod := .get
    httpVersion := .http11
    processState := .parseURI
    parseState := .start }

/-- A store through the reference that `channel_->get_events()` answers. -/
def HttpData.setEvents (http : HttpData) (events : Mask) : HttpData :=
  { http with channel := { http.channel with events := events } }

/-- The member functions of `HttpData` that can be bound to a channel. -/
inductive Handler where
  | handleRead
  | handleWrite
  | handleConnect
deriving Repr, DecidableEq

/-- The callbacks of a channel. -/
structure Callbacks where
  readHandler : Option Handler
  writeHandler : Option Handler
  connectHandler : Option Handler
  errorHandler : Option Handler

/-- The callbacks that the constructor of `HttpData` sets on its channel. -/
def HttpData.callbacks : Callbacks :=
  { readHandler := some .handleRead
    connectHandler := some .handleConnect
    -- the constructor binds `handle_connect` here as well
    writeHandler := some .handleConnect
    errorHandler := none }

end FastWebServer
