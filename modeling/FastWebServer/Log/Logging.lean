import FastWebServer.Library.CxxString

/-!
# The buffers of the log

`Logging` collects lines in a current buffer, with a spare behind it and a list of
full buffers, and a thread writes the buffers to a file. Here are the sections of
both sides as functions: `append` on the front end, and on the back end the section
that swaps the buffers with the lock held (`swapBuffers`), the one that writes a
batch (`writeBatch`) and the one that refills the spares (`refillSpares`).

A buffer is handed around by `shared_ptr`, which may be empty: reaching through an
empty one crashes. The refill resets the pointer it has just set, where the buffer
it points to was meant.
-/

set_option autoImplicit false

namespace FastWebServer.Log

open Cxx

/-! ## Buffers -/

/-- A `LogBuffer`: what has been copied between `data_` and `cur_`. `data_`, which is
declared with parentheses, is taken for the array that its uses make of it. -/
structure LogBuffer where
  content : Str
deriving Repr, DecidableEq

namespace LogBuffer

/-- A new buffer. -/
def empty : LogBuffer := ⟨[]⟩

def getLength (buffer : LogBuffer) : ℤ := buffer.content.length

/-- The bytes left in a buffer of `size` bytes. -/
def getAvailableSize (size : ℕ) (buffer : LogBuffer) : ℤ := size - buffer.content.length

/-- `append`. A line that does not fit is dropped. -/
def append (size : ℕ) (buffer : LogBuffer) (line : Str) : LogBuffer :=
  if buffer.getAvailableSize size > line.length then ⟨buffer.content ++ line⟩ else buffer

end LogBuffer

/-- `shared_ptr<LogBuffer>`. -/
abbrev BufferPtr := Option LogBuffer

/-- `vector<shared_ptr<LogBuffer>>`. -/
abbrev BufferList := List BufferPtr

/-- The members that both sides use with the lock held. -/
structure Front where
  curBuffer : BufferPtr
  nextBuffer : BufferPtr
  bufferList : BufferList
deriving Repr, DecidableEq

/-- The members as the constructor leaves them. -/
def Front.new : Front :=
  { curBuffer := some .empty, nextBuffer := some .empty, bufferList := [] }

/-- The locals of `thread_func`. -/
structure Back where
  logBuffer1 : BufferPtr
  logBuffer2 : BufferPtr
  bufferListOutput : BufferList
deriving Repr, DecidableEq

/-- The locals as they are declared. -/
def Back.new : Back :=
  { logBuffer1 := some .empty, logBuffer2 := some .empty, bufferListOutput := [] }

/-- The file: the bytes passed to `AppendLog::append`, and how many of them are known
to be flushed. `count_` counts the calls since the last flush it made. -/
structure AppendLog where
  passed : Str
  flushed : ℕ
  count : ℕ
deriving Repr, DecidableEq

/-- A file that nothing has been appended to. -/
def AppendLog.new : AppendLog := ⟨[], 0, 0⟩

/-- `num_append_`, as the constructor defaults it. -/
def numAppend : ℕ := 1000

/-- `AppendLog::flush`. -/
def AppendLog.flush (log : AppendLog) : AppendLog := { log with flushed := log.passed.length }

/-- `AppendLog::append`. -/
def AppendLog.append (log : AppendLog) (line : Str) : AppendLog :=
  let log := { log with passed := log.passed ++ line, count := log.count + 1 }
  if numAppend ≤ log.count then { log with count := 0 }.flush else log

/-! ## The front end -/

/-- `Logging::append`. -/
def append (size : ℕ) (line : Str) (front : Front) : Except Crash Front :=
  match front.curBuffer with
  | none => .error .undefinedBehaviour
  | some cur =>
      if cur.getAvailableSize size > line.length then
        .ok { front with curBuffer := some (cur.append size line) }
      else
        let front := { front with bufferList := front.bufferList ++ [some cur] }
        match front.nextBuffer with
        | some next =>
            .ok { front with curBuffer := some (next.append size line), nextBuffer := none }
        | none => .ok { front with curBuffer := some (LogBuffer.empty.append size line) }

/-- An append with a current buffer is done: in that buffer where the line fits, and
otherwise in the spare or in a new one, with the full buffer on the list. -/
theorem append_cases {front : Front} {cur : LogBuffer} (present : front.curBuffer = some cur)
    (size : ℕ) (line : Str) :
    ∃ front', append size line front = .ok front' ∧
      (cur.getAvailableSize size > line.length ∧
          front' = { front with curBuffer := some (cur.append size line) } ∨
        front' =
          { curBuffer := some ((front.nextBuffer.getD .empty).append size line)
            nextBuffer := none
            bufferList := front.bufferList ++ [some cur] }) := by
  unfold append
  rw [present]
  by_cases fits : cur.getAvailableSize size > line.length
  · exact ⟨_, if_pos fits, .inl ⟨fits, rfl⟩⟩
  · simp only [if_neg fits]
    cases front.nextBuffer with
    | none => exact ⟨_, rfl, .inr rfl⟩
    | some next => exact ⟨_, rfl, .inr rfl⟩

/-! ## The back end -/

/-- Whether a spare is there and has length zero. -/
def isSpare (buffer : BufferPtr) : Bool :=
  match buffer with
  | none => false
  | some buffer => buffer.getLength = 0

/-- The assertions at the head of the loop. -/
def headAsserts (back : Back) : Bool :=
  isSpare back.logBuffer1 && isSpare back.logBuffer2 && back.bufferListOutput.isEmpty

/-- The section with the lock held, after the wait. -/
def swapBuffers (front : Front) (back : Back) : Front × Back :=
  let pushed := front.bufferList ++ [front.curBuffer]
  let moved := front.nextBuffer.isNone
  ({ curBuffer := back.logBuffer1
     nextBuffer := if moved then back.logBuffer2 else front.nextBuffer
     bufferList := back.bufferListOutput },
    { logBuffer1 := none
      logBuffer2 := if moved then none else back.logBuffer2
      bufferListOutput := pushed })

/-- The buffers of a batch that are kept: of more than 25 the first two. -/
def dropExcess {α : Type} (batch : List α) : List α :=
  if batch.length > 25 then batch.take 2 else batch

/-- The loop over `buffer_list_output`. -/
def writeBuffers : BufferList → AppendLog → Except Crash AppendLog
  | [], log => .ok log
  | none :: _, _ => .error .undefinedBehaviour
  | some buffer :: rest, log => writeBuffers rest (log.append buffer.content)

/-- From the unlock to the resize: the batch is written. -/
def writeBatch (back : Back) (log : AppendLog) : Except Crash (Back × AppendLog) :=
  if back.bufferListOutput.isEmpty then .error .assertion
  else
    let batch := dropExcess back.bufferListOutput
    match writeBuffers batch log with
    | .error crash => .error crash
    | .ok log => .ok ({ back with bufferListOutput := batch.take 2 }, log)

/-- The refill of one spare: the spare, and the list without the buffer taken. -/
def refill (spare : BufferPtr) (list : BufferList) : Except Crash (BufferPtr × BufferList) :=
  if spare.isSome then .ok (spare, list)
  else if list.isEmpty then .error .assertion
  -- `reset` is called on the pointer, which gives the buffer away
  else .ok (none, list.dropLast)

/-- The refill of both spares, the clear and the flush. -/
def refillSpares (back : Back) (log : AppendLog) : Except Crash (Back × AppendLog) :=
  match refill back.logBuffer1 back.bufferListOutput with
  | .error crash => .error crash
  | .ok (logBuffer1, list) =>
      match refill back.logBuffer2 list with
      | .error crash => .error crash
      | .ok (logBuffer2, _) =>
          .ok ({ logBuffer1 := logBuffer1, logBuffer2 := logBuffer2, bufferListOutput := [] },
            log.flush)

end FastWebServer.Log
