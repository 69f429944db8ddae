import FastWebServer.Lifetimes

/-!
# The interest set of the kernel

`modify_fd_in_epoll` skips `epoll_ctl` when the mask has not changed since the last
call. The mask it remembers has to be the one that the kernel has, and the entry
has to be armed: the first registration is for one event only.

A connection is `Rearmed` when its entry is armed, has the mask of the channel, is
edge-triggered and waits for input or for output. When `epoll_ctl` does not fail on
a registered descriptor, every event that comes to `handle_connect` and leaves the
connection open leaves it `Rearmed` (`dispatch_rearms`). The invariant is that the
kernel always has the remembered mask (`reachable_interested`).
-/

set_option autoImplicit false

namespace FastWebServer

open Cxx

/-! ## Masks -/

/-- The masks with which a connection enters `handle_connect`. -/
def Wanted (events : Mask) : Prop :=
  Asked events ∨ events = epollIn ||| epollEt ∨ events = epollOut ||| epollEt

/-- **A mask that is asked for is arbitrated to input or to output.** -/
theorem arbitrate_wanted {events : Mask} (wanted : Wanted events) (asked : events ≠ 0#32) :
    Conn.arbitrate events = epollIn ||| epollEt ∨ Conn.arbitrate events = epollOut ||| epollEt := by
  rcases wanted with (rfl | rfl | rfl | rfl) | rfl | rfl
  · exact absurd rfl asked
  · exact .inl (by decide)
  · exact .inr (by decide)
  · exact .inr (by decide)
  · exact .inl (by decide)
  · exact .inr (by decide)

/-- An open connection whose entry in the kernel is up to date. -/
structure Rearmed (channel : Channel) (loop : Loop) : Prop where
  entry : loop.kernel channel.fd = some ⟨channel.events, true⟩
  last : channel.lastEvents = channel.events
  edge : channel.events.meets epollEt = true
  oneWay : xor (channel.events.meets epollIn) (channel.events.meets epollOut) = true

theorem Rearmed.registered {channel : Channel} {loop : Loop} (rearmed : Rearmed channel loop) :
    Registered channel loop :=
  ⟨_, rearmed.entry, rearmed.last.symm, by simp⟩

namespace Conn

variable {env : Env} {conn after : Conn}

/-- **One call of `handle_connect`** rearms the connection or closes it. -/
theorem handleConnect_rearms (reliable : env.Reliable) (pending : Pending conn.http conn.loop)
    (registered : Registered conn.http.channel conn.loop)
    (wanted : conn.http.isError = false → Wanted conn.http.channel.events) :
    let after := conn.handleConnect env
    Serving after.http after.loop ∧ Rearmed after.http.channel after.loop ∧
        Wanted after.http.channel.events ∨
      Closed after.http after.loop ∧ after.http.timer = none := by
  intro after
  by_cases failed : conn.http.isError = true
  · obtain ⟨-, closed, unknown, -⟩ := @handleConnect_failed env conn pending failed
    exact .inr ⟨closed, unknown⟩
  · have unfailed : conn.http.isError = false := by simpa using failed
    by_cases asked : conn.http.channel.events = 0#32
    · obtain ⟨connected, unkept⟩ := pending.sound unfailed
      obtain ⟨-, closed, unknown, -⟩ :=
        @handleConnect_idle env conn pending ⟨unfailed, connected, asked, unkept⟩
      exact .inr ⟨closed, unknown⟩
    · obtain ⟨effect, serving, events, last, -⟩ :=
        @handleConnect_active env conn pending unfailed asked
      have masks := arbitrate_wanted (wanted unfailed) asked
      have lasting : (arbitrate conn.http.channel.events).meets epollOneshot = false := by
        rcases masks with mask | mask <;> rw [mask] <;> decide
      have entry := handleConnect_registers reliable pending unfailed asked lasting registered
      have fd : after.http.channel.fd = conn.http.channel.fd := by
        rw [serving.own, effect.fd, pending.own]
      refine .inl ⟨serving, ⟨?_, ?_, ?_, ?_⟩, ?_⟩
      · rw [fd, events]
        exact entry
      · rw [last, events]
      · rw [events]
        rcases masks with mask | mask <;> rw [mask] <;> decide
      · rw [events]
        rcases masks with mask | mask <;> rw [mask] <;> decide
      · rw [events]
        exact .inr masks

/-- **An event rearms its connection or closes it**, if it comes to
`handle_connect`. -/
theorem handleEvents_rearms (reliable : env.Reliable) (serving : Serving conn.http conn.loop)
    (orderly : conn.loop.Orderly) (registered : Registered conn.http.channel conn.loop)
    (kept : conn.http.channel.revents.drops = false) (ran : conn.handleEvents env = .ok after) :
    Rearmed after.http.channel after.loop ∨ after.http.connectionState = .disconnected := by
  obtain ⟨mid, deciding, rfl⟩ := deciding_of_handleEvents serving orderly kept ran
  obtain ⟨events, channel⟩ := deciding.channel
  have known : Registered mid.http.channel mid.loop := by
    obtain ⟨interest, entry, rest⟩ := registered
    refine ⟨interest, ?_, ?_⟩
    · rw [channel, deciding.kernel]
      exact entry
    · rw [channel]
      exact rest
  have wanted : mid.http.isError = false → Wanted mid.http.channel.events := fun unfailed =>
    .inl (deciding.asked unfailed)
  have once := handleConnect_rearms reliable deciding.pending known wanted
  obtain ⟨effect, -⟩ := @handleConnect_outcome env mid deciding.pending
  split
  · rcases once with ⟨serving', rearmed, wanted'⟩ | ⟨closed, unknown⟩
    · have again : Pending (mid.handleConnect env).http (mid.handleConnect env).loop :=
        ⟨serving'.own, fun _ => ⟨serving'.connected, serving'.unkept⟩, serving'.held,
          effect.orderly, .inl serving'.guarded⟩
      rcases handleConnect_rearms reliable again rearmed.registered fun _ => wanted' with
        ⟨-, rearmed', -⟩ | ⟨closed, -⟩
      · exact .inl rearmed'
      · exact .inr closed.disconnected
    · obtain ⟨-, closed', -⟩ :=
        @handleConnect_closed env (mid.handleConnect env) closed effect.orderly unknown
      exact .inr closed'.disconnected
  · rcases once with ⟨-, rearmed, -⟩ | ⟨closed, -⟩
    · exact .inl rearmed
    · exact .inr closed.disconnected

/-- An event leaves the kernel with the mask that its connection remembers. -/
theorem handleEvents_registers (reliable : env.Reliable) (serving : Serving conn.http conn.loop)
    (orderly : conn.loop.Orderly) (registered : Registered conn.http.channel conn.loop)
    (ran : conn.handleEvents env = .ok after) (connected : after.http.connectionState = .connected) :
    Registered after.http.channel after.loop := by
  cases drops : conn.http.channel.revents.drops with
  | true =>
      rw [handleEvents_drops drops, Except.ok.injEq] at ran
      subst ran
      exact registered
  | false =>
      rcases handleEvents_rearms reliable serving orderly registered drops ran with
        rearmed | disconnected
      · exact rearmed.registered
      · rw [connected] at disconnected
        cases disconnected

end Conn

namespace World

variable {env : Env} {world : World} {fd : Fd}

/-! ## Whole runs -/

/-- The kernel has the mask that each connection remembers. -/
def Interested (world : World) : Prop :=
  ∀ fd http, world.conns fd = some http → http.connectionState = .connected →
    Registered http.channel world.loop

theorem registered_congr {channel : Channel} {loop loop' : Loop}
    (registered : Registered channel loop)
    (same : loop'.kernel channel.fd = loop.kernel channel.fd) : Registered channel loop' := by
  obtain ⟨interest, entry, rest⟩ := registered
  exact ⟨interest, same.trans entry, rest⟩

theorem Sound.own (sound : Sound world) {http : HttpData} (present : world.conns fd = some http) :
    http.channel.fd = fd := by
  obtain ⟨rfl, ⟨serving, -⟩ | ⟨closed, -⟩⟩ := sound.present fd http present
  · exact serving.own
  · exact closed.own

/-- A step of one connection leaves the other connections registered. -/
theorem Interested.update (interested : Interested world) (sound : Sound world) {conn : Conn}
    (kernel : ∀ other, other ≠ fd → conn.loop.kernel other = world.loop.kernel other)
    (own : conn.http.connectionState = .connected → Registered conn.http.channel conn.loop) :
    Interested (world.update fd conn) := by
  intro other http present connected
  by_cases same : other = fd
  · subst same
    simp only [World.update, Function.update_self, Option.some.injEq] at present
    subst present
    exact own connected
  · simp only [World.update, Function.update_of_ne same] at present
    refine registered_congr (interested other http present connected) ?_
    rw [sound.own present]
    exact kernel other same

theorem registered_disarm {channel : Channel} {loop : Loop} {interest : Interest}
    (registered : Registered channel loop) (entry : loop.kernel fd = some interest) :
    Registered channel (disarm fd interest loop) := by
  by_cases same : channel.fd = fd
  · obtain ⟨known, entry', mask, -⟩ := registered
    rw [same, entry, Option.some.injEq] at entry'
    subst entry'
    refine ⟨{ interest with armed := !interest.mask.meets epollOneshot }, ?_, mask, by simp⟩
    rw [same]
    exact Function.update_self ..
  · exact registered_congr registered (Function.update_of_ne same _ _)

theorem Interested.dispatch (interested : Interested world) (sound : Sound world)
    (reliable : env.Reliable) {http : HttpData} {interest : Interest} {revents : Mask} {io : Io}
    {conn : Conn} (present : world.conns fd = some http)
    (entry : world.loop.kernel fd = some interest) (stored : world.loop.fdToChannel fd = true)
    (ran : Conn.handleEvents env ⟨request http revents, io, disarm fd interest world.loop⟩ =
      .ok conn) : Interested (world.update fd conn) := by
  obtain ⟨rfl, serving, -⟩ := sound.serving present stored
  have serving' := @serving_request http.fd http world.loop serving revents interest
  have orderly : (disarm http.fd interest world.loop).Orderly := sound.orderly.congr rfl rfl
  have effect := Conn.handleEvents_effect serving' orderly ran
  have registered : Registered (request http revents).channel (disarm http.fd interest world.loop) :=
    registered_disarm (interested http.fd http present serving.connected) entry
  refine interested.update sound (fun other ne => ?_) fun connected => ?_
  · exact (effect.frame.kernel other ne).trans (Function.update_of_ne ne _ _)
  · exact Conn.handleEvents_registers reliable serving' orderly registered ran connected

theorem Interested.pop (interested : Interested world) (sound : Sound world) {timer : Timer} :
    Interested (world.pop env timer) := by
  unfold World.pop destroy
  split
  · exact interested
  · split
    · exact interested
    · rename_i fd held _ http present
      refine interested.update sound (fun other ne => ?_) fun connected => by cases connected
      have own : http.channel.fd = fd := sound.own present
      show (Loop.ctlDel env http.channel.fd _).kernel other = _
      rw [own]
      exact (Loop.frame_ctlDel ..).kernel other ne

theorem Interested.handleExpired (interested : Interested world) (sound : Sound world) :
    Interested (world.handleExpired env) := by
  fun_induction World.handleExpired env world with
  | case1 world least => exact interested
  | case2 world timer least deleted ih =>
      exact ih (interested.pop sound) (sound.pop (env.queue.top_mem _ _ least))
  | case3 world timer least undeleted valid => exact interested
  | case4 world timer least undeleted expired ih =>
      have ticked : Interested world.tick := interested
      exact ih (ticked.pop sound.tick) (sound.tick.pop (env.queue.top_mem _ _ least))

theorem Interested.newEvent (interested : Interested world) (sound : Sound world)
    (reliable : env.Reliable) (fresh : world.conns fd = none) :
    Interested (world.newEvent env fd) := by
  have unknown := sound.absent fd fresh
  obtain ⟨effect, -, -, registers⟩ := @Conn.newEvent_effect env
    ⟨HttpData.new fd, Io.unused, world.loop⟩ rfl rfl rfl rfl sound.orderly unknown.unguarded
  exact interested.update sound effect.frame.kernel fun _ =>
    registers reliable unknown.unregistered

/-- **The kernel has the remembered mask in every reachable state.** -/
theorem reachable_interested (reliable : env.Reliable) (reachable : (machine env).Reachable world) :
    Interested world := by
  refine reachable.induction Interested ?_ fun before after earlier interested step => ?_
  · rintro first rfl fd http present
    cases present
  · have sound := reachable_sound earlier
    cases step with
    | newEvent fd fresh => exact interested.newEvent sound reliable fresh
    | dispatch present entry armed stored ran =>
        exact interested.dispatch sound reliable present entry stored ran
    | ignored entry armed unset =>
        exact fun fd http present connected =>
          registered_disarm (interested fd http present connected) entry
    | handleExpired => exact interested.handleExpired sound

/-- **The skipped call of `epoll_ctl` is sound.** After every event that comes to
`handle_connect` and leaves its connection open, the entry of the kernel is armed,
has the mask of the channel, is edge-triggered, and waits either for input or for
output. -/
theorem dispatch_rearms (reliable : env.Reliable) (reachable : (machine env).Reachable world)
    {http : HttpData} {interest : Interest} {revents : Mask} {io : Io} {conn : Conn}
    (present : world.conns fd = some http) (entry : world.loop.kernel fd = some interest)
    (stored : world.loop.fdToChannel fd = true)
    (ran : Conn.handleEvents env ⟨request http revents, io, disarm fd interest world.loop⟩ =
      .ok conn)
    (kept : revents.drops = false) (opened : (fd, Action.handleClose) ∉ conn.loop.log) :
    conn.loop.kernel fd = some ⟨conn.http.channel.events, true⟩ ∧
      conn.http.channel.lastEvents = conn.http.channel.events ∧
      conn.http.channel.events.meets epollEt = true ∧
      xor (conn.http.channel.events.meets epollIn) (conn.http.channel.events.meets epollOut) =
        true := by
  have sound := reachable_sound reachable
  obtain ⟨rfl, serving, -⟩ := sound.serving present stored
  have serving' := @serving_request http.fd http world.loop serving revents interest
  have orderly : (disarm http.fd interest world.loop).Orderly := sound.orderly.congr rfl rfl
  have known := reachable_interested reliable reachable http.fd http present serving.connected
  have registered : Registered (request http revents).channel (disarm http.fd interest world.loop) :=
    registered_disarm known entry
  have effect := Conn.handleEvents_effect serving' orderly ran
  obtain ⟨actions, log, -, ⟨serves, -⟩ | ⟨-, closing⟩⟩ := effect.log
  · rcases Conn.handleEvents_rearms reliable serving' orderly registered kept ran with
      rearmed | disconnected
    · have fd : conn.http.channel.fd = http.fd := by
        rw [serves.own, effect.fd]
        rfl
      exact ⟨fd ▸ rearmed.entry, rearmed.last, rearmed.edge, rearmed.oneWay⟩
    · rw [serves.connected] at disconnected
      cases disconnected
  · refine absurd ?_ opened
    rw [log]
    exact List.mem_append_right _ (List.mem_map.mpr ⟨_, closing, rfl⟩)

/-- The connection goes on waiting for the rest: the entry for one event has been
replaced. -/
theorem partArrives_rearmed :
    ∃ conn, partArrives.handleEvents Env.calm = .ok conn ∧
      conn.loop.kernel 5 = some ⟨epollIn ||| epollEt, true⟩ ∧
      conn.loop.kernel 5 = some ⟨conn.http.channel.events, true⟩ ∧
      conn.http.channel.lastEvents = conn.http.channel.events ∧
      conn.http.channel.events.meets epollEt = true ∧
      xor (conn.http.channel.events.meets epollIn) (conn.http.channel.events.meets epollOut) =
        true := by
  obtain ⟨conn, self, ran, log, entry, -⟩ := partArrives_handled
  refine ⟨_, ran, entry, dispatch_rearms (fun _ => rfl) accepted_reachable rfl rfl rfl ran rfl ?_⟩
  rw [log]
  simp

end World

end FastWebServer
