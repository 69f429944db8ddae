import FastWebServer.Log.Records
import FastWebServer.LoopThread
import FastWebServer.Server

/-!
# Starting the server

`main` reads its options, logs its first record, which starts the log, creates the loop of the main
thread and the `Server`, which opens the listening socket, and starts the loops of the pool. What
the system calls answer is arbitrary (`System`).

`main` comes to `loop()` exactly when it was given no option, the log can be started, and every call
that it checks succeeds (`main_serves_iff`): `opt` is read once, before the loop that looks at it,
so that a server with an option aborts or never starts (`readOptions_none`), and where the thread of
the log cannot be created, `main` waits for it forever. Where it comes to `loop()`, it hands out the
loops of its threads in turn, the listening socket is open and no timer waits for it (`Listens`),
and the log has taken the first record (`Logs`). The result of the registration is not checked:
after a failure of `epoll_ctl` the server runs without hearing of any connection. A socket that
cannot be set up is closed once (`setSocketBindListen_closes`).

Only `main` itself is followed here. The thread of the log, which goes on beside it, is that of
`Log.machine`.
-/

set_option autoImplicit false

namespace FastWebServer.Startup

open Cxx

/-! ## The system calls -/

/-- What `getopt` answers for an option. -/
inductive Opt where
  | threads (optarg : Str)
  | logPath (optarg : Str)
  | port (optarg : Str)
  | other
deriving Repr, DecidableEq

/-- What the system answers to the calls of the start. -/
structure System where
  /-- The first answer of `getopt`. -/
  getopt : Option Opt
  atoi : Str → ℤ
  socket : Option Fd
  setsockopt : Bool
  bind : Bool
  listen : Bool
  getFlags : Bool
  setFlags : Bool
  /-- The event descriptor of the main loop, or of a thread. -/
  eventfd : ℕ → Option Fd
  pthreadCreate : ℕ → Bool
  /-- The thread of the log, and the `fopen` of its file. -/
  logThread : Bool
  logFile : Bool
  /-- The bytes that the buffer of the first record finds. -/
  stack : FixedArray Char Log.smallBuffer
  time : Log.TimeText
  /-- The name under which `main.cpp` is compiled. -/
  mainFile : Str
  shortName : mainFile.length < 2 ^ 31
  /-- Descriptors that are open differ. -/
  distinct : ∀ socket' wakeup, socket = some socket' → eventfd 0 = some wakeup → socket' ≠ wakeup

inductive Abort where
  /-- `abort`, or an assertion that fails. -/
  | abort
  /-- `setbuffer` of a null stream. -/
  | nullStream
deriving Repr, DecidableEq

/-! ## The options -/

/-- The variables that the options set. -/
structure Options where
  numThreads : ℤ
  port : ℤ
  logPath : Str
deriving Repr, DecidableEq

def Options.default : Options :=
  { numThreads := 4, port := 80, logPath := "./FastWebServer.log".toList }

/-- The `while` of `main`. Without fuel it has not ended. -/
def readOptions (system : System) : ℕ → Option Opt → Options → Option (Except Abort Options)
  | _, none, options => some (.ok options)
  | 0, some _, _ => none
  | fuel + 1, some opt, options =>
      match opt with
      | .threads optarg =>
          readOptions system fuel (some opt) { options with numThreads := system.atoi optarg }
      | .logPath optarg =>
          if optarg.length < 2 ∨ optarg.head? ≠ some '/' then some (.error .abort)
          else readOptions system fuel (some opt) { options with logPath := optarg }
      | .port optarg => readOptions system fuel (some opt) { options with port := system.atoi optarg }
      | .other => readOptions system fuel (some opt) options

/-! ## The first record -/

/-- `LOG << "_PTHREADS is not defined!!!"`, in line 43 of `main.cpp`. -/
def notDefined (system : System) (format : Log.DoubleFormat) :
    Log.Statement Log.smallBuffer format :=
  ⟨system.stack, system.time, ⟨system.mainFile, Log.mainLine.numLines, system.shortName⟩,
    [.cString (some "_PTHREADS is not defined!!!".toList) (by rintro _ ⟨⟩; decide)]⟩

/-- The log when `start` returns: its thread has counted `latch_` down. -/
def startedLog : Log.System := Log.System.new.start.threadFunc

/-- `output` of the first record, whose `once_init` starts the log. Where its thread is not created,
nobody counts `latch_` down. The thread passes on to `setbuffer` what `fopen` returns. -/
def output (system : System) (record : Str) : Option (Except Abort Log.System) :=
  if system.logThread then
    if system.logFile then
      match Log.append Log.smallBuffer record startedLog.front with
      | .error _ => some (.error .abort)
      | .ok front => some (.ok { startedLog with front := front, appended := [record] })
    else some (.error .nullStream)
  else none

/-- What becomes of the log in `main`. -/
structure Logs (system : System) (format : Log.DoubleFormat) (log : Log.System) : Prop where
  record : ∃ record, (notDefined system format).record = .ok record ∧ log.appended = [record]
  reachable : (Log.machine Log.smallBuffer).Reachable log

/-- **The first record starts the log**, if its thread can be created and its file opened. -/
theorem output_iff (system : System) (format : Log.DoubleFormat) :
    ∃ record, (notDefined system format).record = .ok record ∧
      ((∃ log, output system record = some (.ok log)) ↔
        system.logThread = true ∧ system.logFile = true) ∧
      ∀ log, output system record = some (.ok log) → Logs system format log := by
  have positive : 0 < Log.smallBuffer := by decide
  obtain ⟨made, short⟩ := (notDefined system format).record_eq positive (by decide)
  obtain ⟨front, -, -, accepted, -⟩ := Log.append_grouped (Log.placed_new positive).front short
  have taken : Log.append Log.smallBuffer _ startedLog.front = .ok front := accepted
  have starts : (Log.machine Log.smallBuffer).Reachable Log.System.new.start :=
    (Runs.Machine.Reachable.start rfl).step (Log.Step.start rfl)
  have counts : (Log.machine Log.smallBuffer).Reachable startedLog :=
    starts.step (Log.Step.thread rfl)
  have appends := counts.step (Log.Step.append nofun taken)
  refine ⟨_, made, ?_, fun log ran => ?_⟩
  · unfold output
    rw [taken]
    cases system.logThread <;> cases system.logFile <;> simp
  · unfold output at ran
    rw [taken] at ran
    split at ran
    · split at ran
      · cases ran
        exact ⟨⟨_, made, rfl⟩, appends⟩
      · cases ran
    · cases ran

/-! ## The listening socket -/

/-- The sockets that have been opened and closed. -/
structure Sockets where
  opened : List Fd
  closed : List Fd
deriving Repr, DecidableEq

/-- `set_socket_bind_listen`, which asserts that the port is one. -/
def setSocketBindListen (system : System) (port : ℤ) : Except Abort (ℤ × Sockets) :=
  if 0 ≤ port ∧ port ≤ 65535 then
    match system.socket with
    | none => .ok (-1, ⟨[], []⟩)
    | some listenFd =>
        if !system.setsockopt then .ok (-1, ⟨[listenFd], [listenFd]⟩)
        else if !system.bind then .ok (-1, ⟨[listenFd], [listenFd]⟩)
        else if !system.listen then .ok (-1, ⟨[listenFd], [listenFd]⟩)
        else .ok (listenFd, ⟨[listenFd], []⟩)
  else .error .abort

/-- `set_socket_nonblock`. No flags can be read of the descriptor `-1`. -/
def setSocketNonblock (system : System) (fd : ℤ) : ℤ :=
  if fd < 0 ∨ system.getFlags = false then -1
  else if system.setFlags = false then -1
  else 0

/-- The calls that set the socket up, and the port. -/
structure Settable (system : System) (port : ℤ) (listenFd : Fd) : Prop where
  proper : 0 ≤ port ∧ port ≤ 65535
  socket : system.socket = some listenFd
  setsockopt : system.setsockopt = true
  bind : system.bind = true
  listen : system.listen = true

/-- **A socket that cannot be set up is closed once**, and the answer is `-1`. Otherwise the answer
is the socket, and it is open. -/
theorem setSocketBindListen_closes {system : System} {port fd : ℤ} {sockets : Sockets}
    (ran : setSocketBindListen system port = .ok (fd, sockets)) :
    fd = -1 ∧ sockets.closed = sockets.opened ∧ sockets.opened = system.socket.toList ∨
      ∃ listenFd : Fd, fd = listenFd ∧ sockets = ⟨[listenFd], []⟩ ∧
        Settable system port listenFd := by
  unfold setSocketBindListen at ran
  split at ran
  · rename_i proper
    split at ran
    · rename_i none
      cases ran
      exact .inl ⟨rfl, rfl, by rw [none]; rfl⟩
    · rename_i listenFd some
      have closed : system.socket.toList = [listenFd] := by
        rw [some]
        rfl
      split at ran
      · cases ran
        exact .inl ⟨rfl, rfl, closed.symm⟩
      · rename_i option
        split at ran
        · cases ran
          exact .inl ⟨rfl, rfl, closed.symm⟩
        · rename_i bind
          split at ran <;> cases ran
          · exact .inl ⟨rfl, rfl, closed.symm⟩
          · rename_i listen
            exact .inr ⟨listenFd, rfl, rfl, proper, some, by simpa using option,
              by simpa using bind, by simpa using listen⟩
  · cases ran

theorem setSocketBindListen_of {system : System} {port : ℤ} {listenFd : Fd}
    (settable : Settable system port listenFd) :
    setSocketBindListen system port = .ok ((listenFd : ℤ), ⟨[listenFd], []⟩) := by
  simp [setSocketBindListen, settable.proper, settable.socket, settable.setsockopt, settable.bind,
    settable.listen]

/-! ## The loops -/

/-- `start_loop` for the threads of the pool. The loop of a thread is named by its number, counted
from one. Where a thread is not created nobody sets `loop_`, and the wait for it does not end. -/
def startLoops (system : System) :
    (count index : ℕ) → Option (Except Abort { loops : List ℕ // loops.length = count })
  | 0, _ => some (.ok ⟨[], rfl⟩)
  | count + 1, index =>
      if system.pthreadCreate index then
        if (system.eventfd (index + 1)).isSome then
          match startLoops system count (index + 1) with
          | none => none
          | some (.error _) => some (.error .abort)
          | some (.ok loops) =>
              some (.ok ⟨(index + 1) :: loops.val, by rw [List.length_cons, loops.property]⟩)
        else some (.error .abort)
      else none

/-- A channel of the main loop that is registered without a holder. -/
def channelConn (fd : Fd) (loop : Loop) : Conn :=
  ⟨(HttpData.new fd).setEvents (epollIn ||| epollEt), Io.unused, loop⟩

/-- `add_to_poller` with the timeout `0`. -/
def register (env : Env) (fd : Fd) (loop : Loop) : Loop :=
  ((channelConn fd loop).addFdInEpoll env 0).loop

/-! ## main -/

/-- A server whose main thread calls `loop()`. -/
structure Started where
  pool : EventLoopThreadPool ℕ
  listenFd : Fd
  sockets : Sockets
  loop : Loop

/-- `Server::Server` and `Server::start`, on a main loop. -/
def startServer (system : System) (env : Env) (options : Options) (loop : Loop) :
    Option (Except Abort Started) :=
  if positive : 0 < options.numThreads then
    match setSocketBindListen system options.port with
    | .error _ => some (.error .abort)
    | .ok (listenFd, sockets) =>
        if setSocketNonblock system listenFd < 0 then some (.error .abort)
        else
          match startLoops system options.numThreads.toNat 0 with
          | none => none
          | some (.error _) => some (.error .abort)
          | some (.ok loops) =>
              some (.ok
                { pool := .threadPoolCreate 0 loops.val (by rw [loops.property]; omega)
                  listenFd := listenFd.toNat
                  sockets := sockets
                  loop := register env listenFd.toNat loop })
  else some (.error .abort)

/-- `main` behind the options, with the first record. -/
def logAndStart (system : System) (env : Env) (options : Options) :
    Except Fault Str → Option (Except Abort (Log.System × Started))
  | .error _ => some (.error .abort)
  | .ok record =>
      match output system record with
      | none => none
      | some (.error failed) => some (.error failed)
      | some (.ok log) =>
          match system.eventfd 0 with
          | none => some (.error .abort)
          | some wakeup =>
              (startServer system env options (register env wakeup Loop.new)).map
                (Except.map (Prod.mk log))

/-- `main`, as far as the call of `loop()`. -/
def main (format : Log.DoubleFormat) (system : System) (env : Env) (fuel : ℕ) :
    Option (Except Abort (Log.System × Started)) :=
  match readOptions system fuel system.getopt .default with
  | none => none
  | some (.error failed) => some (.error failed)
  | some (.ok options) => logAndStart system env options (notDefined system format).record

/-! ## When main serves -/

variable {system : System} {env : Env}

/-- **An option stops the start**: the loop that looks at it aborts or does not end. -/
theorem readOptions_none (fuel : ℕ) (opt : Opt) (options : Options) :
    readOptions system fuel (some opt) options = none ∨
      readOptions system fuel (some opt) options = some (.error .abort) := by
  induction fuel generalizing options with
  | zero => exact .inl rfl
  | succ fuel ih =>
      cases opt with
      | threads optarg => exact ih { options with numThreads := system.atoi optarg }
      | port optarg => exact ih { options with port := system.atoi optarg }
      | other => exact ih options
      | logPath optarg =>
          rw [readOptions]
          split
          · exact .inr rfl
          · exact ih { options with logPath := optarg }

/-- The threads of the pool are created, and their loops too. -/
def Threads (system : System) (count index : ℕ) : Prop :=
  ∀ i < count, system.pthreadCreate (index + i) = true ∧
    (system.eventfd (index + i + 1)).isSome = true

theorem threads_succ {count index : ℕ} : Threads system (count + 1) index ↔
    (system.pthreadCreate index = true ∧ (system.eventfd (index + 1)).isSome = true) ∧
      Threads system count (index + 1) := by
  constructor
  · refine fun threads => ⟨threads 0 (Nat.succ_pos _), fun i inside => ?_⟩
    have later := threads (i + 1) (by omega)
    rwa [← Nat.add_assoc, Nat.add_right_comm] at later
  · rintro ⟨first, later⟩ i inside
    cases i with
    | zero => exact first
    | succ i =>
        have next := later i (by omega)
        rwa [← Nat.add_assoc, Nat.add_right_comm]

/-- Loops that have been started are those of the threads, in order. -/
theorem startLoops_ok {count index : ℕ} {loops : { loops : List ℕ // loops.length = count }}
    (ran : startLoops system count index = some (.ok loops)) :
    Threads system count index ∧ loops.val = (List.range count).map (index + 1 + ·) := by
  induction count generalizing index with
  | zero =>
      rw [startLoops, Option.some.injEq, Except.ok.injEq] at ran
      subst ran
      exact ⟨nofun, rfl⟩
  | succ count ih =>
      rw [threads_succ]
      rw [startLoops] at ran
      split at ran
      · rename_i created
        split at ran
        · rename_i looped
          split at ran
          · cases ran
          · cases ran
          · rename_i later started
            cases ran
            obtain ⟨threads, numbered⟩ := ih started
            refine ⟨⟨⟨created, looped⟩, threads⟩, ?_⟩
            show (index + 1) :: later.val = _
            rw [numbered, List.range_succ_eq_map, List.map_cons, List.map_map]
            refine congrArg _ (List.map_congr_left fun i _ => ?_)
            simp only [Function.comp_apply]
            omega
        · cases ran
      · cases ran

theorem startLoops_threads {count index : ℕ} (threads : Threads system count index) :
    ∃ loops, startLoops system count index = some (.ok loops) := by
  induction count generalizing index with
  | zero => exact ⟨_, rfl⟩
  | succ count ih =>
      obtain ⟨⟨created, looped⟩, later⟩ := threads_succ.mp threads
      obtain ⟨loops, started⟩ := ih later
      exact ⟨_, by rw [startLoops, if_pos created, if_pos looped, started]⟩

/-- The calls that `main` checks succeed. -/
structure Usable (system : System) (options : Options) : Prop where
  threads : 0 < options.numThreads ∧ Threads system options.numThreads.toNat 0
  settable : ∃ listenFd, Settable system options.port listenFd
  flags : system.getFlags = true ∧ system.setFlags = true

theorem setSocketNonblock_iff {fd : ℤ} : ¬ setSocketNonblock system fd < 0 ↔
    0 ≤ fd ∧ system.getFlags = true ∧ system.setFlags = true := by
  unfold setSocketNonblock
  split
  · rename_i fails
    simp only [Int.reduceNeg, Int.reduceLT, not_true_eq_false, false_iff]
    rintro ⟨nonneg, flags, -⟩
    simp [flags] at fails
    omega
  · rename_i read
    obtain ⟨nonneg, flags⟩ := not_or.mp read
    cases written : system.setFlags <;> simp_all

/-- What has been set up when `loop()` is called. -/
structure Serves (system : System) (env : Env) (options : Options) (wakeup : Fd)
    (started : Started) : Prop where
  pool : started.pool.started = true ∧ started.pool.next = 0 ∧
    started.pool.loops = (List.range options.numThreads.toNat).map (1 + ·)
  socket : system.socket = some started.listenFd ∧ started.sockets = ⟨[started.listenFd], []⟩
  loop : started.loop = register env started.listenFd (register env wakeup Loop.new)

theorem startServer_ok {options : Options} {wakeup : Fd} {started : Started}
    (ran : startServer system env options (register env wakeup Loop.new) = some (.ok started)) :
    Usable system options ∧ Serves system env options wakeup started := by
  unfold startServer at ran
  split at ran
  · rename_i positive
    split at ran
    · cases ran
    · rename_i listenFd sockets opened
      split at ran
      · cases ran
      · rename_i nonblock
        obtain ⟨nonneg, flags⟩ := setSocketNonblock_iff.mp nonblock
        split at ran
        · cases ran
        · cases ran
        · rename_i loops looped
          cases ran
          obtain ⟨threads, numbered⟩ := startLoops_ok looped
          rcases setSocketBindListen_closes opened with ⟨rfl, -⟩ | ⟨fd, rfl, rfl, settable⟩
          · omega
          · refine ⟨⟨⟨positive, threads⟩, ⟨fd, settable⟩, flags⟩, ?_, ?_, rfl⟩
            · refine ⟨rfl, rfl, ?_⟩
              show loops.val = _
              rw [numbered, Nat.zero_add]
            · exact ⟨settable.socket, rfl⟩
  · cases ran

theorem startServer_usable {options : Options} (usable : Usable system options) (loop : Loop) :
    ∃ started, startServer system env options loop = some (.ok started) := by
  obtain ⟨⟨positive, threads⟩, ⟨listenFd, settable⟩, flags⟩ := usable
  obtain ⟨loops, looped⟩ := startLoops_threads threads
  have nonblock : ¬ setSocketNonblock system listenFd < 0 :=
    setSocketNonblock_iff.mpr ⟨Int.natCast_nonneg _, flags⟩
  simp only [startServer, dif_pos positive, setSocketBindListen_of settable, if_neg nonblock, looped]
  exact ⟨_, rfl⟩

/-! ## What has been registered -/

/-- The registration of a channel without a holder. -/
theorem register_eq (env : Env) (fd : Fd) (loop : Loop) :
    register env fd loop =
      { loop with fdToChannel := Function.update loop.fdToChannel fd true }.ctlAdd env fd
        (epollIn ||| epollEt) := rfl

/-- What the registration of a channel without a holder changes. -/
structure Registers (env : Env) (fd : Fd) (before after : Loop) : Prop where
  stored : after.fdToChannel fd = !env.ctlFault before.ctls
  entry : after.kernel fd =
    if env.ctlFault before.ctls then none else some ⟨epollIn ||| epollEt, true⟩
  kernel : ∀ other, other ≠ fd → after.kernel other = before.kernel other
  timers : after.timers = before.timers
  fdToHttp : after.fdToHttp = before.fdToHttp
  ctls : after.ctls = before.ctls + 1

/-- **A channel is stored if and only if the kernel has taken it.** -/
theorem register_registers {fd : Fd} {loop : Loop} (free : loop.kernel fd = none) :
    Registers env fd loop (register env fd loop) := by
  rw [register_eq, Loop.ctlAdd, Loop.epollCtl]
  cases fault : env.ctlFault loop.ctls with
  | false =>
      rw [if_pos (by simp [free])]
      exact ⟨by simp [fault], by simp [fault], fun other ne => Function.update_of_ne ne .., rfl,
        rfl, rfl⟩
  | true =>
      rw [if_neg (by simp)]
      exact ⟨by simp [fault], by simp [fault, free], fun _ _ => rfl, rfl, rfl, rfl⟩

/-- What the main loop has to do with the listening socket when it begins. The registration is the
second call of `epoll_ctl`, and nobody looks at its result. -/
structure Listens (env : Env) (started : Started) : Prop where
  opened : started.sockets = ⟨[started.listenFd], []⟩
  heard : started.loop.fdToChannel started.listenFd = !env.ctlFault 1
  entry : started.loop.kernel started.listenFd =
    if env.ctlFault 1 then none else some ⟨epollIn ||| epollEt, true⟩
  untimed : started.loop.timers = []
  unheld : started.loop.fdToHttp started.listenFd = false

theorem Serves.listens {options : Options} {wakeup : Fd} {started : Started}
    (serves : Serves system env options wakeup started)
    (looped : system.eventfd 0 = some wakeup) : Listens env started := by
  obtain ⟨socket, opened⟩ := serves.socket
  have apart : started.listenFd ≠ wakeup := system.distinct _ _ socket looped
  have first : Registers env wakeup Loop.new (register env wakeup Loop.new) :=
    register_registers rfl
  have free : (register env wakeup Loop.new).kernel started.listenFd = none :=
    first.kernel _ apart
  have second := @register_registers env _ _ free
  have calls : (register env wakeup Loop.new).ctls = 1 := first.ctls
  have stored := second.stored
  have entry := second.entry
  rw [calls] at stored entry
  rw [← serves.loop] at stored entry
  refine ⟨opened, stored, entry, ?_, ?_⟩
  · rw [serves.loop, second.timers, first.timers]
    rfl
  · rw [serves.loop, second.fdToHttp, first.fdToHttp]
    rfl

/-- The loops that the pool hands out. -/
theorem Serves.turns {options : Options} {wakeup : Fd} {started : Started}
    (serves : Serves system env options wakeup started) (positive : 0 < options.numThreads)
    {calls call : ℕ} (called : call < calls) :
    (started.pool.nextLoops calls)[call]? = some (call % options.numThreads.toNat + 1) := by
  obtain ⟨started', next, loops⟩ := serves.pool
  have count : 0 < options.numThreads.toNat := by omega
  have nonempty : started.pool.loops ≠ [] := by
    rw [loops]
    simp
    omega
  rw [started.pool.getElem?_nextLoops started' nonempty called, next, loops, List.length_map,
    List.length_range, Nat.zero_add, List.getElem?_map,
    List.getElem?_range (Nat.mod_lt _ count), Option.map_some, Nat.add_comm]

theorem logAndStart_ok {options : Options} {record : Str} {log : Log.System} {started : Started}
    (ran : logAndStart system env options (.ok record) = some (.ok (log, started))) :
    output system record = some (.ok log) ∧ ∃ wakeup, system.eventfd 0 = some wakeup ∧
      Usable system options ∧ Serves system env options wakeup started := by
  simp only [logAndStart] at ran
  split at ran
  · cases ran
  · cases ran
  · rename_i log' written
    split at ran
    · cases ran
    · rename_i wakeup looped
      obtain ⟨result, served, same⟩ := Option.map_eq_some_iff.mp ran
      cases result with
      | error failed => cases same
      | ok started' =>
          cases same
          exact ⟨written, wakeup, looped, startServer_ok served⟩

/-- A server with an option does not come to `loop()`. -/
theorem main_eq {format : Log.DoubleFormat} {fuel : ℕ} {log : Log.System} {started : Started} :
    main format system env fuel = some (.ok (log, started)) ↔ system.getopt = none ∧
      logAndStart system env .default (notDefined system format).record =
        some (.ok (log, started)) := by
  unfold main
  cases option : system.getopt with
  | some opt =>
      rcases @readOptions_none system fuel opt .default with endless | aborts
      · simp [endless]
      · simp [aborts]
  | none =>
      have read : readOptions system fuel none .default = some (.ok .default) := by
        cases fuel <;> rfl
      simp only [read, true_and]

/-- **The start of the server.** For any answers of the system, `main` comes to `loop()` if and only
if it was given no option, the log can be started, the main loop has an event descriptor, and
everything else that it checks succeeds. Then the log has taken the first record, the listening
socket is open, no timer waits for it, it has been registered unless `epoll_ctl` failed, and the
four loops are handed out in turn. -/
theorem main_serves_iff (format : Log.DoubleFormat) (system : System) (env : Env) :
    ((∃ fuel log started, main format system env fuel = some (.ok (log, started))) ↔
        system.getopt = none ∧ (system.logThread = true ∧ system.logFile = true) ∧
          (system.eventfd 0).isSome = true ∧ Usable system .default) ∧
      ∀ fuel log started, main format system env fuel = some (.ok (log, started)) →
        Logs system format log ∧ Listens env started ∧ ∀ calls call, call < calls →
          (started.pool.nextLoops calls)[call]? = some (call % 4 + 1) := by
  obtain ⟨record, made, starts, logs⟩ := output_iff system format
  have ends : ∀ {fuel log started}, main format system env fuel = some (.ok (log, started)) →
      system.getopt = none ∧ output system record = some (.ok log) ∧
        ∃ wakeup, system.eventfd 0 = some wakeup ∧ Usable system .default ∧
          Serves system env .default wakeup started := by
    intro fuel log started ran
    obtain ⟨option, ran⟩ := main_eq.mp ran
    rw [made] at ran
    exact ⟨option, logAndStart_ok ran⟩
  refine ⟨⟨?_, ?_⟩, fun fuel log started ran => ?_⟩
  · rintro ⟨fuel, log, started, ran⟩
    obtain ⟨option, written, wakeup, looped, usable, -⟩ := ends ran
    exact ⟨option, starts.mp ⟨log, written⟩, by rw [looped]; rfl, usable⟩
  · rintro ⟨option, logged, looped, usable⟩
    obtain ⟨wakeup, looped⟩ := Option.isSome_iff_exists.mp looped
    obtain ⟨log, written⟩ := starts.mpr logged
    obtain ⟨started, ran⟩ :=
      @startServer_usable system env .default usable (register env wakeup Loop.new)
    refine ⟨0, log, started, main_eq.mpr ⟨option, ?_⟩⟩
    rw [made]
    simp only [logAndStart, written, looped, ran, Option.map_some, Except.map]
  · obtain ⟨-, written, wakeup, looped, -, serves⟩ := ends ran
    exact ⟨logs log written, serves.listens looped,
      fun calls call called => serves.turns (by decide) called⟩

end FastWebServer.Startup
