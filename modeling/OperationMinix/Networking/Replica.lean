import OperationMinix.Game.Bodies
import OperationMinix.Game.Outcome
import OperationMinix.Networking.Rotation

/-!
# The replica keeps step with the player

Neither peer sends the position of its player.  What it sends is its controls, once a tick, and
the other peer moves a replica by them, with the code that moves the player and on its own copy
of the map.  Nothing ever compares the two.

They agree all the same.  A tick of the player and the tick of the replica that its packet
causes compute the same step, since the packet carries all that the step depends on.  So the
replica is behind by exactly the packets that the peer has not read yet: let it make the ticks
of these, and it stands where the player stands.  That holds wherever the packets are, in
the queue, on the line, or cut in the middle, and whatever both players do.

The first packet is sent in the tick that ends the handshake, in which the players do not move.
Its tick must not move the replica either, which takes a start that is clear of walls.

## Main definitions

* `Body.replay` — the ticks of a list of packets.
* `InStep` — the replica is behind by what has not been read.
* `Entered` — both peers have just ended the handshake.

## Main results

* `Twins.step` — **one tick**, of the player and of the replica that its packet drives.
* `tick_bodies` — what a tick of the program does to the two bodies in it.
* `replica_in_step` — **in every run, the replica stands where the unread packets lead to the
  player.**
-/

namespace OperationMinix

open Runs

set_option linter.unusedSectionVars false

section Model

variable {K : Type*} [Field K] [LinearOrder K] [FloorRing K]

/-! ### Packets and bodies -/

/-- What a packet makes of the body of the replica before its tick. -/
def Body.obey (pkt : NetworkPacket) (b : Body K) : Body K :=
  let desl : K := (pkt.mouseByte.toNat : K) / 128
  { b with
    mouseDesl := if pkt.mouseMsb then -desl else desl
    asked :=
      { x := (if pkt.wDown then 1 else 0) - (if pkt.sDown then 1 else 0)
        y := (if pkt.dDown then 1 else 0) - (if pkt.aDown then 1 else 0) }
    crouch := pkt.ctrlDown
    sprint := pkt.shiftDown }

theorem body_decodePacket (pkt : NetworkPacket) (p : PlayerInfo K) :
    (decodePacket pkt p).body = p.body.obey pkt := rfl

/-- The ticks that a list of packets causes. -/
def Body.replay (l : Libm K) (m : GameMap) (pkts : List NetworkPacket) (b : Body K) : Body K :=
  pkts.foldl (fun b pkt => (b.obey pkt).step l m) b

@[simp] theorem Body.replay_nil (l : Libm K) (m : GameMap) (b : Body K) : b.replay l m [] = b :=
  rfl

theorem Body.replay_append (l : Libm K) (m : GameMap) (pkts pkts' : List NetworkPacket)
    (b : Body K) : b.replay l m (pkts ++ pkts') = (b.replay l m pkts).replay l m pkts' :=
  List.foldl_append

@[simp] theorem Body.type_replay (l : Libm K) (m : GameMap) : ∀ (pkts : List NetworkPacket)
    (b : Body K), (b.replay l m pkts).type = b.type := by
  intro pkts
  induction pkts with
  | nil => intro b; rfl
  | cons pkt pkts ih =>
    intro b
    exact (ih _).trans (Body.type_step l m _)

/-- The second body, of a replica, stands and looks like the first one, of a player that does
what its keys ask for. -/
structure Twins (p b : Body K) : Prop where
  player : p.type = .player
  replica : b.type = .networkPlayer
  movement : p.movement = p.asked
  position : b.position = p.position
  direction : b.direction = p.direction
  radius : b.radius = p.radius

/-- The mouse takes no part in it. -/
theorem Twins.mouse {p b : Body K} (h : Twins p b) (desl : K) :
    Twins { p with mouseDesl := desl } b :=
  ⟨h.player, h.replica, h.movement, h.position, h.direction, h.radius⟩

/-! ### The bodies in a tick of the program -/

variable {c : Setting K}

/-- A packet in the game steps the body of the replica, and leaves the player alone. -/
theorem bodies_driveEnemy (pkt : NetworkPacket) {w : World K} (hw : w.Valid (.enemy 0)) :
    let v := driveEnemy c pkt w
    (v.get (.enemy 0)).body = ((w.get (.enemy 0)).body.obey pkt).step c.libm w.map ∧
      v.player.body = w.player.body ∧ v.map = w.map ∧ v.Valid (.enemy 0) := by
  intro v
  have hvalid := World.valid_modify hw (decodePacket pkt)
  have hsteer := World.valid_modify hvalid
    (steer c.libm (w.modify (.enemy 0) (decodePacket pkt)).map)
  have hself := body_playerIntIh c.toEnv hvalid (.enemy 0)
  have hplayer := body_playerIntIh c.toEnv hvalid .player
  have hsame := sameBodies_playerIntIh c.toEnv (.enemy 0) (w.modify (.enemy 0) (decodePacket pkt))
  rw [if_pos rfl, World.get_modify_self hw, World.map_modify, body_decodePacket] at hself
  exact ⟨hself, hplayer, hsame.map, hsame.valid hsteer⟩

/-- The packets that have arrived step the body of the replica, one after the other. -/
theorem bodies_handleAll : ∀ (fs : List (List Entry)) (w : World K), w.Valid (.enemy 0) →
    let v := handleAll (driveEnemy c) fs w
    (v.get (.enemy 0)).body = (w.get (.enemy 0)).body.replay c.libm w.map
        (fs.map fun f => decodeData (frameBytes f)) ∧
      v.player.body = w.player.body ∧ v.map = w.map ∧ v.Valid (.enemy 0) := by
  intro fs
  induction fs with
  | nil => intro w hw; exact ⟨rfl, rfl, rfl, hw⟩
  | cons f fs ih =>
    intro w hw
    obtain ⟨hself, hplayer, hmap, hvalid⟩ :=
      bodies_driveEnemy (c := c) (decodeData (frameBytes f)) hw
    obtain ⟨hself', hplayer', hmap', hvalid'⟩ := ih _ hvalid
    refine ⟨?_, hplayer'.trans hplayer, hmap'.trans hmap, hvalid'⟩
    rw [hself, hmap] at hself'
    exact hself'

/-- In a multiplayer game the tick of the players steps the body of the local one only. -/
theorem bodies_simulate (t : Tick K) {w : World K} (hst : w.state = .mpGame)
    (hreplica : (w.get (.enemy 0)).type = .networkPlayer) :
    let v := simulate c t w
    v.player.body = w.player.body.step c.libm w.map ∧
      (v.get (.enemy 0)).body = (w.get (.enemy 0)).body ∧ v.map = w.map ∧
        v.enemies.length = w.enemies.length := by
  intro v
  have hw₁ : (playerIntIh c.toEnv .player (handleEnemies t.bots w)).state = .mpGame :=
    (state_playerIntIh _ _ _).trans hst
  have hv : v = updatePickups (playerIntIh c.toEnv .player (handleEnemies t.bots w)) := by
    show updatePickups (if _ then _ else _) = _
    rw [if_neg (by rw [hw₁]; decide)]
  have hsame := bodies_updatePickups (playerIntIh c.toEnv .player (handleEnemies t.bots w))
  have hlocal : (handleEnemies t.bots w).Valid .player := trivial
  have htick := body_playerIntIh c.toEnv hlocal
  have hrest := sameBodies_playerIntIh c.toEnv .player (handleEnemies t.bots w)
  rw [hv]
  refine ⟨(hsame.bodies .player).trans (htick .player), ?_, hsame.map.trans hrest.map, ?_⟩
  · rw [hsame.bodies, htick, if_neg nofun, get_handleEnemies t.bots (by simp [hreplica])]
  · rw [hsame.enemies, hrest.enemies]
    exact List.length_mapIdx

/-- What a tick after which the game goes on does, from the unfinished frame `part`: what has
arrived drives the replica, and the player, now `q`, makes its tick and sends its packet. -/
structure BodyTick (c : Setting K) (part : List Entry) (g g' : Game K) (q : PlayerInfo K) :
    Prop where
  step : q.body = g.world.player.body.step c.libm g.world.map
  player : g'.world.player.body = { q.body with mouseDesl := 0 }
  replica : (g'.world.get (.enemy 0)).body = (g.world.get (.enemy 0)).body.replay c.libm
    g.world.map (packets (framer.feed part g.net.inFifo).2)
  map : g'.world.map = g.world.map
  valid : g'.world.Valid (.enemy 0)
  gun : HasGun q ∧ HasGun g'.world.player
  sent : wireBytes g'.net.calls = wireBytes g.net.calls ++ sentBytes q
  read : g'.net.inFifo = []
  unfinished : Unfinished g'.net (framer.feed part g.net.inFifo).1
  connected : g'.net.state = .connected

/-- The end of a tick after which the game goes on: the game is drawn, and no decision is
taken. -/
theorem update_display_eq {g : Game K} (hst : g.state = .mpGame) (hgun : HasGun g.world.player)
    (h : (updateGameState (resetPlayerMouseMovm (display c g))).state = .mpGame) :
    updateGameState (resetPlayerMouseMovm (display c g)) =
        resetPlayerMouseMovm (renderGame c g) ∧
      StaysOn g (renderGame c g) ∧ g.world.SameBodies (renderGame c g).world := by
  have hdisplay : display c g = renderGame c g := by
    unfold display
    rw [hst]
  have hon := renderGame_mpGame c hst hgun
  rw [hdisplay] at h ⊢
  have hdecision := updateGameState_localDecision (b := resetPlayerMouseMovm (renderGame c g))
    hon.state
  exact ⟨hdecision.2.2 (localDecision_eq_none (hdecision.1.symm.trans h)), hon,
    bodies_renderGame g⟩

/-- The second half of a tick that goes on. -/
theorem BodyTick.finish {part : List Entry} {t : Tick K} {g g' : Game K} {n : Net} {w : World K}
    (hst : w.state = .mpGame) (hgun : HasGun w.player)
    (htype : (w.get (.enemy 0)).type = .networkPlayer) (hvalid : w.Valid (.enemy 0))
    (hn : n.inFifo = [] ∧ Unfinished n (framer.feed part g.net.inFifo).1 ∧
      n.state = .connected ∧ n.calls = g.net.calls)
    (hplayer : w.player.body = g.world.player.body) (hmap : w.map = g.world.map)
    (hreplica : (w.get (.enemy 0)).body = (g.world.get (.enemy 0)).body.replay c.libm
      g.world.map (packets (framer.feed part g.net.inFifo).2))
    (hrecv : receiveStage c g = { g with net := n, world := w }) (h : gameHandler c t g = .ok g')
    (hst' : g'.state = .mpGame) : BodyTick c part g g' (simulate c t w).player := by
  obtain ⟨b, hb, rfl⟩ := gameHandler_ok h
  obtain ⟨p, hp, rfl⟩ := beforeUpdate_ok hb
  obtain ⟨hbody, hother, hmap', hlength⟩ := bodies_simulate (c := c) t hst htype
  -- the players have made their ticks
  have hplay : playStage c t (receiveStage c g) =
      .ok { g with net := n, world := simulate c t w } := by
    rw [hrecv]
    exact if_pos (Or.inr hst)
  cases hplay.symm.trans hp
  have hstate : (simulate c t w).state = .mpGame := (state_simulate c t w).trans hst
  have hgun' : HasGun (simulate c t w).player := hasGun_simulate c t hst hgun
  have hsend : sendStage { g with net := n, world := simulate c t w } =
      { g with net := uartSendData (simulate c t w).player n, world := simulate c t w } :=
    if_pos hstate
  rw [hsend] at hst' ⊢
  obtain ⟨heq, hon, hsame⟩ := update_display_eq (g := { g with
    net := uartSendData (simulate c t w).player n, world := simulate c t w }) hstate hgun' hst'
  rw [heq]
  have hnet := hon.net
  generalize renderGame c _ = r at hon hsame hnet ⊢
  refine ⟨?_, ?_, ?_, ?_, ?_, ⟨hgun', hon.gun⟩, ?_, ?_, ?_, ?_⟩
  · rw [hbody, hplayer, hmap]
  · have hdrawn : r.world.player.body = (simulate c t w).player.body := hsame.bodies .player
    rw [← hdrawn]
    rfl
  · exact (hsame.bodies (.enemy 0)).trans (hother.trans hreplica)
  · exact hsame.map.trans (hmap'.trans hmap)
  · have hvalid' : (simulate c t w).Valid (.enemy 0) := hvalid.trans_eq hlength.symm
    exact hsame.valid hvalid'
  · show wireBytes r.net.calls = _
    rw [hnet]
    show wireBytes (n.calls ++ (uartSendData (simulate c t w).player Net.start).calls) = _
    rw [wireBytes_append, hn.2.2.2]
    rfl
  · show r.net.inFifo = []
    rw [hnet]
    exact hn.1
  · have hun : Unfinished (uartSendData (simulate c t w).player n)
        (framer.feed part g.net.inFifo).1 := hn.2.1.congr rfl rfl
    exact hun.congr (congrArg Net.packetIdx hnet) (congrArg Net.bytes hnet)
  · show r.net.state = .connected
    rw [hnet]
    exact hn.2.2.1

/-- **What a tick of the program does to the two bodies in it**, if the game goes on. -/
theorem tick_bodies {t : Tick K} {part : List Entry} {g g' : Game K} (hst : g.state = .mpGame)
    (hnet : g.net.state = .connected) (hgun : HasGun g.world.player) (hun : Unfinished g.net part)
    (hvalid : g.world.Valid (.enemy 0))
    (htype : (g.world.get (.enemy 0)).body.type = .networkPlayer)
    (h : gameHandler c t g = .ok g') (hst' : g'.state = .mpGame) :
    ∃ q, BodyTick c part g g' q := by
  obtain ⟨hw, hgunw⟩ := uartReceiveData_replica (driveEnemy c)
    (P := fun w => w.state = .mpGame ∧ HasGun w.player)
    (fun pkt w hw => ⟨(state_driveEnemy c pkt w).trans hw.1, hasGun_driveEnemy c pkt hw.2⟩) g.net
    (r := g.world) ⟨hst, hgun⟩
  have hstate := uartReceiveData_state (driveEnemy c) g.net g.world
  obtain ⟨⟨taken, hin, hun', hhandled⟩, hok, hcalls⟩ :=
    uartReceiveData_spec (driveEnemy c) hun g.world
  obtain ⟨fs, hfs, hpackets, -⟩ := hhandled.packets_announced
  have hrecv : receiveStage c g = _ := if_pos hst
  generalize uartReceiveData (driveEnemy c) g.net g.world = out at *
  obtain ⟨res, n, w⟩ := out
  dsimp only at *
  cases res with
  | winGameErr =>
    have hleft := gameHandler_remote (Or.inl rfl) (hrecv.trans (if_neg nofun)) h
    cases hleft.1.symm.trans hst'
  | loseGameErr =>
    have hleft := gameHandler_remote (Or.inr rfl) (hrecv.trans (if_neg nofun)) h
    cases hleft.1.symm.trans hst'
  | ok =>
    -- without a result the tick can still end the game, when the peer is silent for too long
    by_cases hto : TimesOut g.net
    · rw [if_pos hto] at hstate
      obtain ⟨hleft | hleft, -⟩ := gameHandler_lost (hrecv.trans (if_pos hstate)) h
      · cases hleft.symm.trans hst'
      · cases hleft.symm.trans hst'
    · rw [if_neg hto, hnet] at hstate
      have hempty := hok rfl
      rw [hempty, List.append_nil] at hin
      rw [← hin] at hun' hpackets
      -- the packets that were announced move the replica, one after the other
      obtain ⟨hreplica, hplayer, hmap, hvalid'⟩ := bodies_handleAll (c := c) fs g.world hvalid
      rw [← hfs] at hreplica hplayer hmap hvalid'
      rw [← hpackets] at hreplica
      have htype' : (w.get (.enemy 0)).body.type = .networkPlayer := by
        rw [hreplica, Body.type_replay]
        exact htype
      exact ⟨_, BodyTick.finish hw hgunw htype' hvalid' ⟨hempty, hun', hstate, hcalls⟩ hplayer
        hmap hreplica (hrecv.trans (if_neg (by simp [hstate]))) h hst'⟩

end Model

section Exact

variable {K : Type*} [Field K] [LinearOrder K] [IsStrictOrderedRing K] [FloorRing K]

/-- What the packet of a player with one of the three guns makes of a body. -/
theorem obey_encodePacket {p : PlayerInfo K} (hp : HasGun p) (b : Body K) :
    b.obey (encodePacket p) = { b with
      mouseDesl := turnAngle p.body.mouseDesl
      asked := p.body.asked
      crouch := p.body.crouch
      sprint := p.body.sprint } := by
  obtain ⟨h1, h3⟩ := encodePacket_gunDown_le hp
  have hdesl := mouseDesl_relay p (PlayerInfo.zero : PlayerInfo K)
  rw [relay, decodeData_encodeData h1 h3] at hdesl
  show ({ b with mouseDesl := (decodePacket (encodePacket p) PlayerInfo.zero).movm.mouseDesl,
                 asked := _, crouch := _, sprint := _ } : Body K) = _
  rw [hdesl]
  rfl

/-- **One tick.**  The player makes its tick and sends its packet; the tick that the packet
causes takes the replica to the same place. -/
theorem Twins.step (l : Libm K) (m : GameMap) {p b : Body K} (h : Twins p b) {q : PlayerInfo K}
    (hq : HasGun q) (hstep : q.body = p.step l m) :
    Twins q.body ((b.obey (encodePacket q)).step l m) := by
  obtain ⟨hplayer, hreplica, hmovement, hposition, hdirection, hradius⟩ := h
  rw [obey_encodePacket hq, hstep, Body.step_player l m hplayer]
  rw [Body.step_networkPlayer l m (by exact hreplica)]
  -- the angle that arrives is rounded once more
  have hangle : turnAngle (turnAngle p.mouseDesl) = turnAngle p.mouseDesl := turnAngle_turnAngle _
  refine ⟨hplayer, hreplica, hmovement, ?_, ?_, hradius⟩
  · simp only [Body.move, Body.stride, Body.speed, hangle, hposition, hdirection, hradius,
      hmovement]
  · simp only [Body.move, hangle, hdirection]

/-! ### The pair -/

/-- Both peers play. -/
def BothPlay (s : Duel K) : Prop := ∀ p, shows s p = .mpGame

/-- The body of the player on side `p`. -/
def ownBody (s : Duel K) (p : Side) : Body K := (s.peer p).game.world.player.body

/-- The body of the replica on side `p`, of the player on the other side. -/
def replicaBody (s : Duel K) (p : Side) : Body K := ((s.peer p).game.world.get (.enemy 0)).body

/-- The packets that side `p` has not read, from the unfinished frame `part`. -/
def unreadPackets (s : Duel K) (p : Side) (part : List Entry) : List NetworkPacket :=
  packets (framer.feed part (unread s p)).2

/-- **The replica on side `p` is behind by what has not been read**: the ticks of the unread
packets take it to the player. -/
def InStep (l : Libm K) (m : GameMap) (s : Duel K) (p : Side) : Prop :=
  ∃ part, Unfinished (s.peer p).game.net part ∧ (framer.feed part (unread s p)).1 = [] ∧
    Twins (ownBody s p.other) ((replicaBody s p).replay l m (unreadPackets s p part))

/-- A side that plays, on a map `m`. -/
structure Plays (l : Libm K) (m : GameMap) (x : Combatant K) : Prop where
  libm : x.setting.libm = l
  map : x.game.world.map = m
  connected : x.game.net.state = .connected
  gun : HasGun x.game.world.player
  valid : x.game.world.Valid (.enemy 0)

/-- What every step keeps as long as both play. -/
def Lockstep (l : Libm K) (m : GameMap) (s : Duel K) : Prop :=
  BothPlay s → ∀ p, Plays l m (s.peer p) ∧ InStep l m s p

section Act

variable {l : Libm K} {m : GameMap} {s : Duel K} {p : Side} {x : Combatant K} {ms : List Byte}

/-- The packet that a side sends brings the replica on the other side back in step. -/
theorem InStep.sent {part : List Entry} {q : PlayerInfo K} (hq : HasGun q)
    (hrest : (framer.feed part (unread s p.other)).1 = [])
    (htwins : Twins (ownBody s p) ((replicaBody s p.other).replay l m
      (unreadPackets s p.other part)))
    (hstep : q.body = (ownBody s p).step l m) :
    let u := s.afterAct p x (sentBytes q)
    (framer.feed part (unread u p.other)).1 = [] ∧
      Twins q.body ((replicaBody u p.other).replay l m (unreadPackets u p.other part)) := by
  intro u
  have hunread : unread u p.other = unread s p.other ++ (sentBytes q).map entry :=
    Duplex.pending_act_other s p x (sentBytes q)
  have hfeed : framer.feed part (unread u p.other) =
      ([], (framer.feed part (unread s p.other)).2 ++ [(sentBytes q).map entry]) := by
    rw [hunread, feed_append_frame hrest (frame_sentBytes hq)]
  have hpackets : unreadPackets u p.other part =
      unreadPackets s p.other part ++ [encodePacket q] := by
    unfold unreadPackets
    rw [hfeed, packets_append, ← decodeData_sentBytes hq]
    simp [packets, frameResult_sentBytes hq]
  have hreplica : replicaBody u p.other = replicaBody s p.other := by
    simp [replicaBody, u]
  rw [hpackets, hreplica, Body.replay_append]
  exact ⟨by rw [hfeed], htwins.step l m hq hstep⟩

/-- What a step of one side other than a tick leaves: the player may have other controls, and
does what its keys ask for. -/
structure Steered (y x : Combatant K) : Prop where
  net : x.game.net = y.game.quiet.net
  gunIndex : x.game.world.player.gunIndex = y.game.world.player.gunIndex
  enemies : x.game.world.enemies = y.game.world.enemies
  map : x.game.world.map = y.game.world.map
  twins : ∀ b, Twins y.game.world.player.body b → Twins x.game.world.player.body b

/-- A step of one side is a tick, or steers its player. -/
theorem combat_act_bodies {y : Combatant K} {i : GameInput K}
    (h : combat.act y i = some (x, ms)) : x.setting = y.setting ∧
      ((∃ t, gameHandler y.setting t (timerIntHandler y.game.quiet) = .ok x.game) ∨
        Steered y x) := by
  simp only [combat] at h
  split at h
  · next hst =>
    have hexit : y.game.quiet.state ≠ .exit := by
      show y.game.state ≠ .exit
      rw [hst]
      decide
    cases i with
    | recv e => cases h
    | mouse pos lb desl =>
      simp only [gameMachine, if_neg hexit] at h
      cases h
      exact ⟨rfl, Or.inr ⟨rfl, rfl, rfl, rfl, fun b hb => hb.mouse _⟩⟩
    | kbd k =>
      simp only [gameMachine, if_neg hexit] at h
      cases h
      exact ⟨rfl, Or.inr ⟨rfl, rfl, rfl, rfl, fun b hb =>
        ⟨hb.player, hb.replica, rfl, hb.position, hb.direction, hb.radius⟩⟩⟩
    | rtc cause =>
      simp only [gameMachine, if_neg hexit] at h
      cases h
      refine ⟨rfl, Or.inr ?_⟩
      unfold rtcIh
      split_ifs <;> exact ⟨rfl, rfl, rfl, rfl, fun b hb => hb⟩
    | tick t =>
      -- the only input that moves a body
      obtain ⟨g, hg, heq⟩ := Option.map_eq_some_iff.mp h
      cases heq
      exact ⟨rfl, Or.inl ⟨t, gameHandler_of_tick hg⟩⟩
  · cases h

/-- Both are in step after a step of `p` when the two are, seen from the replicas. -/
theorem Lockstep.afterAct (hself : Plays l m x) (hpeer : Plays l m (s.peer p.other))
    {part part' : List Entry} (hun : Unfinished x.game.net part)
    (hun' : Unfinished (s.peer p.other).game.net part')
    {u : Duel K} (hu : u = s.afterAct p x ms)
    (hfeed : (framer.feed part (unread u p)).1 = [] ∧
      Twins (ownBody s p.other) ((replicaBody u p).replay l m (unreadPackets u p part)))
    (hfeed' : (framer.feed part' (unread u p.other)).1 = [] ∧
      Twins x.game.world.player.body
        ((replicaBody u p.other).replay l m (unreadPackets u p.other part'))) :
    Lockstep l m u := by
  subst hu
  intro _ r
  rcases Side.eq_or_eq_other r p with rfl | rfl
  · refine ⟨by simpa using hself, part, by simpa using hun, hfeed.1, ?_⟩
    have hown : ownBody (s.afterAct r x ms) r.other = ownBody s r.other := by simp [ownBody]
    rw [hown]
    exact hfeed.2
  · refine ⟨by simpa using hpeer, part', by simpa using hun', hfeed'.1, ?_⟩
    have hown : ownBody (s.afterAct p x ms) p.other.other = x.game.world.player.body := by
      simp [ownBody]
    rw [hown]
    exact hfeed'.2

/-- **A tick of one side** that goes on: what was in the queue has been read, and a packet is
sent. -/
theorem Lockstep.tick (hself : Plays l m (s.peer p)) (hin : InStep l m s p)
    (hpeer : Plays l m (s.peer p.other)) (hin' : InStep l m s p.other) (hp : shows s p = .mpGame)
    (hsetting : x.setting = (s.peer p).setting) {t : Tick K} (hx : x.game.state = .mpGame)
    (h : gameHandler (s.peer p).setting t (timerIntHandler (s.peer p).game.quiet) = .ok x.game) :
    Lockstep l m (s.afterAct p x (wireBytes x.game.net.calls)) := by
  obtain ⟨part, hun, hrest, htwins⟩ := hin
  obtain ⟨part', hun', hrest', htwins'⟩ := hin'
  rw [Side.other_other] at htwins'
  have htype : (replicaBody s p).type = .networkPlayer := by
    rw [← Body.type_replay l m]
    exact htwins.replica
  obtain ⟨q, hq⟩ := tick_bodies (g := timerIntHandler (s.peer p).game.quiet) hp hself.connected
    hself.gun (hun.congr rfl rfl) hself.valid htype h hx
  have hms : wireBytes x.game.net.calls = sentBytes q := hq.sent
  have hstep : q.body = (ownBody s p).step l m := by
    rw [← hself.libm, ← hself.map]
    exact hq.step
  obtain ⟨hrest₂, htwins₂⟩ := InStep.sent (x := x) hq.gun.1 hrest' htwins' hstep
  refine Lockstep.afterAct ⟨by rw [hsetting, hself.libm], hq.map.trans hself.map, hq.connected,
    hq.gun.2, hq.valid⟩ hpeer hq.unfinished hun' rfl ?_ ?_
  · -- the replica here has made the ticks that were in the queue; the wire has the others
    have hunread : unread s p = (s.peer p).game.net.inFifo ++ (s.wire p).map entry := rfl
    have hunread₂ : unread (s.afterAct p x (wireBytes x.game.net.calls)) p =
        (s.wire p).map entry := by
      rw [unread_afterAct_self, hq.read, List.nil_append]
    have hreplica : replicaBody (s.afterAct p x (wireBytes x.game.net.calls)) p =
        (replicaBody s p).replay l m
          (packets (framer.feed part (s.peer p).game.net.inFifo).2) := by
      rw [← hself.libm, ← hself.map]
      unfold replicaBody
      rw [Duplex.afterAct_self]
      exact hq.replica
    unfold unreadPackets at htwins ⊢
    rw [hunread, Framer.feed_append] at hrest htwins
    rw [packets_append, Body.replay_append] at htwins
    rw [hreplica, hunread₂]
    exact ⟨hrest, htwins⟩
  · rw [hms, hq.player]
    exact ⟨hrest₂, htwins₂.mouse 0⟩

/-- A step of one side that steers its player. -/
theorem Lockstep.steer (hself : Plays l m (s.peer p)) (hin : InStep l m s p)
    (hpeer : Plays l m (s.peer p.other)) (hin' : InStep l m s p.other)
    (hsetting : x.setting = (s.peer p).setting) (h : Steered (s.peer p) x) :
    Lockstep l m (s.afterAct p x (wireBytes x.game.net.calls)) := by
  obtain ⟨part, hun, hrest, htwins⟩ := hin
  obtain ⟨part', hun', hrest', htwins'⟩ := hin'
  rw [Side.other_other] at htwins'
  have hms : wireBytes x.game.net.calls = [] := by rw [h.net]; rfl
  have hget : x.game.world.get (.enemy 0) = (s.peer p).game.world.get (.enemy 0) := by
    simp only [World.get, h.enemies]
  have hunread : unread (s.afterAct p x []) p = unread s p := by
    rw [unread_afterAct_self, h.net]
    rfl
  have hunread' : unread (s.afterAct p x []) p.other = unread s p.other := by
    have hother : unread (s.afterAct p x []) p.other = unread s p.other ++ [].map entry :=
      Duplex.pending_act_other s p x []
    rwa [List.map_nil, List.append_nil] at hother
  rw [hms]
  refine Lockstep.afterAct ⟨by rw [hsetting, hself.libm], h.map.trans hself.map,
    by rw [h.net]; exact hself.connected, by unfold HasGun; rw [h.gunIndex]; exact hself.gun,
    ?_⟩ hpeer (hun.congr (by rw [h.net]; rfl) (by rw [h.net]; rfl)) hun' rfl ?_ ?_
  · show 0 < x.game.world.enemies.length
    rw [h.enemies]
    exact hself.valid
  · have hreplica : replicaBody (s.afterAct p x []) p = replicaBody s p := by
      unfold replicaBody
      rw [Duplex.afterAct_self, hget]
    unfold unreadPackets
    rw [hunread, hreplica]
    exact ⟨hrest, htwins⟩
  · have hreplica : replicaBody (s.afterAct p x []) p.other = replicaBody s p.other := by
      unfold replicaBody
      rw [Duplex.afterAct_other]
    unfold unreadPackets
    rw [hunread', hreplica]
    exact ⟨hrest', h.twins _ htwins'⟩

/-- **A step of one side** keeps both in step. -/
theorem Lockstep.act (hs : Lockstep l m s) {i : GameInput K}
    (h : combat.act (s.peer p) i = some (x, ms)) : Lockstep l m (s.afterAct p x ms) := by
  intro hboth
  obtain ⟨hp, rfl, -⟩ := combat_act_cases h
  have hplay : BothPlay s := by
    intro r
    rcases Side.eq_or_eq_other r p with rfl | rfl
    · exact hp
    · simpa using hboth p.other
  have hx : x.game.state = .mpGame := by simpa using hboth p
  obtain ⟨hself, hin⟩ := hs hplay p
  obtain ⟨hpeer, hin'⟩ := hs hplay p.other
  obtain ⟨hsetting, ⟨t, htick⟩ | hsteered⟩ := combat_act_bodies h
  · exact Lockstep.tick hself hin hpeer hin' hp hsetting hx htick hboth
  · exact Lockstep.steer hself hin hpeer hin' hsetting hsteered hboth

/-- A delivery moves an entry from the wire to the queue. -/
theorem Lockstep.deliver (hs : Lockstep l m s) {b : Byte} (hw : s.wire p = b :: ms) :
    Lockstep l m (s.afterDeliver p (combat.receive (s.peer p) b) ms) := by
  set u : Duel K := s.afterDeliver p (combat.receive (s.peer p) b) ms with hu
  have hunread : ∀ r, unread u r = unread s r :=
    Duplex.pending_deliver (A := combat) (fun _ => rfl) hw
  have hpeer : ∀ r, u.peer r = s.peer r ∨ u.peer r = combat.receive (s.peer r) b := by
    intro r
    rcases Side.eq_or_eq_other r p with rfl | rfl
    · exact Or.inr (by simp [hu])
    · exact Or.inl (by simp [hu])
  have hworld : ∀ r, (u.peer r).game.world = (s.peer r).game.world := by
    intro r
    rcases hpeer r with h | h <;> rw [h]
    rfl
  intro hboth r
  have hplay : BothPlay s := by
    intro r
    have hr := hboth r
    unfold shows Game.state at hr ⊢
    rwa [hworld] at hr
  obtain ⟨⟨hlibm, hmap, hconn, hgun, hvalid⟩, part, hun, hrest, htwins⟩ := hs hplay r
  refine ⟨?_, part, ?_, by rw [hunread]; exact hrest, ?_⟩
  · rcases hpeer r with h | h
    · rw [h]
      exact ⟨hlibm, hmap, hconn, hgun, hvalid⟩
    · rw [h]
      exact ⟨hlibm, hmap, hconn, hgun, hvalid⟩
  · rcases hpeer r with h | h
    · rw [h]
      exact hun
    · rw [h]
      exact hun.congr rfl rfl
  · unfold ownBody replicaBody unreadPackets
    rw [hworld, hworld, hunread]
    exact htwins

/-- **One step of the pair.** -/
theorem Lockstep.step (hs : Lockstep l m s) {e : Event (GameInput K)} {u : Duel K}
    (h : combat.machine.step s e = some u) : Lockstep l m u := by
  obtain ⟨p, i, x, ms, rfl, hact, rfl⟩ | ⟨p, b, ms, rfl, hw, rfl⟩ := Duplex.step_cases h
  · exact hs.act hact
  · exact hs.deliver hw

end Act

/-! ### The start -/

/-- A mouse that has not been moved turns nobody. -/
theorem turnAngle_zero : turnAngle (0 : K) = 0 := by
  have hclamp : clampDesl (0 : K) = 0 := clampDesl_of_abs_le (by norm_num)
  rw [turnAngle_eq, steps_eq_floor, hclamp]
  simp

/-- A step of a replica that is asked for nothing: it stays where it is, at least its radius
away from every wall. -/
theorem Body.step_at_rest {l : Libm K} (hcos : l.cos 0 = 1) (hsin : l.sin 0 = 0) {m : GameMap}
    {b : Body K} (htype : b.type = .networkPlayer) (hasked : b.asked = ⟨0, 0⟩)
    (hdesl : b.mouseDesl = 0) (hclear : Clear m b.radius b.position) :
    (b.step l m).position = b.position ∧ (b.step l m).direction = b.direction := by
  have hangle : turnAngle b.mouseDesl = 0 := by rw [hdesl, turnAngle_zero]
  rw [Body.step_networkPlayer l m htype]
  have hrotate : ∀ v : Vec K, rotate l 0 v = v := by
    intro v
    simp [rotate, hcos, hsin]
  have hstay : displaced b.position (Body.stride { b with
      movement := b.asked
      direction := rotate l (turnAngle b.mouseDesl) b.direction
      cameraPlane := rotate l (turnAngle b.mouseDesl) b.cameraPlane }) = b.position := by
    simp [displaced, Body.stride, hasked]
  refine ⟨?_, ?_⟩
  · show playerWallCollision l m b.radius (displaced b.position _) = b.position
    rw [hstay]
    exact playerWallCollision_of_clear hclear
  · show rotate l (turnAngle b.mouseDesl) b.direction = b.direction
    rw [hangle, hrotate]

/-- A body that has just been put at a start. -/
structure AtSpawn (l : Libm K) (type : PlayerType) (first : Bool) (b : Body K) : Prop where
  type : b.type = type
  position : b.position = spawnPosition first
  direction : b.direction = normalize l (spawnDirection first)
  radius : b.radius = playerRadius
  movement : b.movement = b.asked
  asked : b.asked = ⟨0, 0⟩
  mouseDesl : b.mouseDesl = 0

/-- What `setup_multiplayer` makes of an empty level: the player at one end, and the replica of
the other one at the other end. -/
theorem setupMultiplayer_bodies {c : Setting K} (player : ℕ) {w : World K} (hw : w.enemies = []) :
    let v := setupMultiplayer c player w
    v.enemies.length = 1 ∧
      AtSpawn c.libm .player (!decide (player = 2)) v.player.body ∧
      AtSpawn c.libm .networkPlayer (decide (player = 2)) (v.get (.enemy 0)).body := by
  intro v
  have hsetup : v = setupMultiplayer c player w := rfl
  unfold setupMultiplayer at hsetup
  simp only [spawn_eq] at hsetup
  have hasked : (⟨0 - 0, 0 - 0⟩ : Vec K) = ⟨0, 0⟩ := by rw [sub_zero]
  have hplayer : v.player = newPlayer c.libm c.fov (playerSetup
      (spawnPosition (!decide (player = 2))) (spawnDirection (!decide (player = 2))) 100
      [createGunInstance 0 0 0, createGunInstance 1 0 0, createGunInstance 2 0 0]) := by
    rw [hsetup]
    rfl
  have henemies : v.enemies = [newPlayer c.libm c.fov
      { playerSetup (spawnPosition (decide (player = 2))) (spawnDirection (decide (player = 2))) 100
          [createGunInstance 0 0 0, createGunInstance 1 0 0, createGunInstance 2 0 0] with
        type := .networkPlayer }] := by
    rw [hsetup]
    show w.enemies ++ [_] = _
    rw [hw]
    rfl
  rw [World.get, henemies, hplayer]
  exact ⟨rfl, ⟨rfl, rfl, rfl, rfl, hasked.symm, hasked, rfl⟩,
    ⟨rfl, rfl, rfl, rfl, hasked.symm, hasked, rfl⟩⟩

/-- The tick in which the handshake of the peer has ended, as player `player`, with nothing left
of an earlier level. -/
def Entered (x : Combatant K) (player : ℕ) : Prop :=
  x.game.state = .mpGame ∧ ∃ (t : Tick K) (g : Game K) (n : Net), g.state = .mpMenu ∧
    g.world.enemies = [] ∧ uartSync t.polls g.net = .ok n ∧ n.state = .connected ∧
    n.player = player ∧ gameHandler x.setting t g = .ok x.game

/-- The level that is loaded when the handshake ends. -/
theorem afterSync_world {c : Setting K} {m : GameMap} (hm : c.maps 3 = some m) {g : Game K}
    (hconn : g.net.state = .connected) (hempty : g.world.enemies = []) :
    ∃ w : World K, w.enemies = [] ∧ w.map = m ∧ w.state = .mpGame ∧
      (afterSync c g).world = { setupMultiplayer c g.net.player w with timeCounter := 0 } ∧
      (afterSync c g).net = g.net := by
  have hload : afterSync c g = (loadLevel c 3 2 g.net.player g).2.inWorld fun w =>
      { w with timeCounter := 0 } := if_pos hconn
  rw [hload]
  unfold loadLevel
  dsimp only
  rw [show (3 : ℤ).toNat = 3 from rfl, hm]
  refine ⟨{ g.world with
    map := m
    pickups := { g.world.pickups with collisionTable := initCollisionTable m.columns m.lines }
    gunAnims := initAllGunAnims
    state := .mpGame }, hempty, rfl, rfl, rfl, rfl⟩

/-- **The peer after this tick**: it plays, its player stands at its end, and the replica at the
other. -/
theorem Entered.spec {x : Combatant K} {player : ℕ} {m : GameMap} (h : Entered x player)
    (hm : x.setting.maps 3 = some m) :
    Plays x.setting.libm m x ∧
      AtSpawn x.setting.libm .player (!decide (player = 2)) x.game.world.player.body ∧
      AtSpawn x.setting.libm .networkPlayer (decide (player = 2))
        (x.game.world.get (.enemy 0)).body := by
  obtain ⟨hst, t, g, n, hmenu, hempty, hsync, hconn, rfl, htick⟩ := h
  obtain ⟨b, hb, heq⟩ := gameHandler_ok htick
  obtain ⟨p, hp, rfl⟩ := beforeUpdate_ok hb
  -- in the lobby nothing is received, and the level is loaded in this tick
  have hrecv : receiveStage x.setting g = g := if_neg (by rw [hmenu]; decide)
  have hplay : playStage x.setting t g = .ok (afterSync x.setting { g with net := n }) := by
    unfold playStage lobbyStage
    rw [if_neg (by rw [hmenu]; decide), if_pos hmenu, hsync]
  rw [hrecv] at hp
  cases hplay.symm.trans hp
  obtain ⟨w, hw, hmap, hgame, hworld, hnet⟩ :=
    afterSync_world hm (g := { g with net := n }) hconn hempty
  obtain ⟨hlength, hplayer, hreplica⟩ := setupMultiplayer_bodies (c := x.setting) n.player hw
  generalize afterSync x.setting _ = g₁ at hworld hnet hst heq
  have hmp : g₁.state = .mpGame := (congrArg World.state hworld).trans hgame
  have hsend : sendStage g₁ = { g₁ with net := uartSendData g₁.world.player g₁.net } := if_pos hmp
  rw [heq, hsend] at hst
  rw [hsend] at heq
  have hgun : HasGun g₁.world.player := by
    rw [hworld]
    exact List.mem_cons_self
  -- the game goes on, so the page is drawn, and no body is moved
  obtain ⟨hdrawn, hon, hsame⟩ := update_display_eq
    (g := { g₁ with net := uartSendData g₁.world.player g₁.net }) hmp hgun hst
  have honnet := hon.net
  have hx := heq.trans hdrawn
  generalize renderGame x.setting _ = r at hon hsame honnet hx
  have hsetup : (setupMultiplayer x.setting n.player w).SameBodies g₁.world :=
    (World.SameBodies.refl _).congr (by rw [hworld]) (by rw [hworld]) (by rw [hworld])
  have hdone := hsetup.trans hsame
  have hbody : r.world.player.body = (setupMultiplayer x.setting n.player w).player.body :=
    hdone.bodies .player
  refine ⟨⟨rfl, ?_, ?_, ?_, ?_⟩, ?_, ?_⟩
  · rw [hx]
    exact hdone.map.trans hmap
  · rw [hx]
    show r.net.state = .connected
    rw [honnet]
    show g₁.net.state = .connected
    rw [hnet]
    exact hconn
  · rw [hx]
    exact hon.gun
  · rw [hx]
    exact Nat.lt_of_lt_of_eq Nat.zero_lt_one (hdone.enemies.trans hlength).symm
  · rw [hx]
    have hreset : (resetPlayerMouseMovm r).world.player.body =
        { (setupMultiplayer x.setting n.player w).player.body with mouseDesl := 0 } := by
      rw [← hbody]
      rfl
    rw [hreset]
    exact ⟨hplayer.type, hplayer.position, hplayer.direction, hplayer.radius, hplayer.movement,
      hplayer.asked, rfl⟩
  · rw [hx]
    show AtSpawn _ _ _ (r.world.get (.enemy 0)).body
    rw [hdone.bodies (.enemy 0)]
    exact hreplica

/-- Both peers have just ended the handshake, the one on the right as player 2, and each has
still to read the packet that the other has sent in the same tick. -/
structure BothEntered (s : Duel K) : Prop where
  entered : ∀ p, ∃ player, Entered (s.peer p) player ∧ (player = 2 ↔ p = .right)
  unread : ∀ p, ∃ part, Unfinished (s.peer p).game.net part ∧
    framer.feed part (unread s p) =
      ([], [(sentBytes (s.peer p.other).game.world.player).map entry])

/-- The first packet moves nobody. -/
theorem BothEntered.lockstep {l : Libm K} (hcos : l.cos 0 = 1) (hsin : l.sin 0 = 0) {m : GameMap}
    (hclear : ∀ first, Clear m (playerRadius : K) (spawnPosition first)) {s : Duel K}
    (hset : ∀ p, (s.peer p).setting.libm = l ∧ (s.peer p).setting.maps 3 = some m)
    (hs : BothEntered s) : Lockstep l m s := by
  have hspec : ∀ p, Plays l m (s.peer p) ∧
      AtSpawn l .player (decide (p = .left)) (ownBody s p) ∧
      AtSpawn l .networkPlayer (decide (p.other = .left)) (replicaBody s p) := by
    intro p
    obtain ⟨player, hentered, hplayer⟩ := hs.entered p
    obtain ⟨hplays, hown, hreplica⟩ := hentered.spec (hset p).2
    rw [(hset p).1] at hplays hown hreplica
    have hdecide : decide (player = 2) = decide (p = .right) := by simp [hplayer]
    rw [hdecide] at hown hreplica
    cases p with
    | left => exact ⟨hplays, hown, hreplica⟩
    | right => exact ⟨hplays, hown, hreplica⟩
  intro _ p
  obtain ⟨hplays, -, hreplica⟩ := hspec p
  obtain ⟨hother, hown, -⟩ := hspec p.other
  obtain ⟨part, hun, hfeed⟩ := hs.unread p
  refine ⟨hplays, part, hun, by rw [hfeed], ?_⟩
  have hgun := hother.gun
  -- what is on the way is one packet, of a player that asks for nothing
  have hpackets : unreadPackets s p part = [encodePacket (s.peer p.other).game.world.player] := by
    unfold unreadPackets
    rw [hfeed, ← decodeData_sentBytes hgun]
    simp [packets, frameResult_sentBytes hgun]
  rw [hpackets]
  show Twins _ (((replicaBody s p).obey _).step l m)
  have hdesl : turnAngle (ownBody s p.other).mouseDesl = 0 := by
    rw [hown.mouseDesl]
    exact turnAngle_zero
  obtain ⟨hposition, hdirection⟩ := Body.step_at_rest hcos hsin (m := m)
    (b := (replicaBody s p).obey (encodePacket (s.peer p.other).game.world.player))
    hreplica.type (by rw [obey_encodePacket hgun]; exact hown.asked)
    (by rw [obey_encodePacket hgun]; exact hdesl) (by
      show Clear m (replicaBody s p).radius (replicaBody s p).position
      rw [hreplica.radius, hreplica.position]
      exact hclear _)
  refine ⟨hown.type, (Body.type_step l m _).trans hreplica.type, hown.movement,
    hposition.trans (hreplica.position.trans hown.position.symm),
    hdirection.trans (hreplica.direction.trans hown.direction.symm), ?_⟩
  rw [Body.radius_step]
  exact hreplica.radius.trans hown.radius.symm

/-- While both play, the unread packets take each replica to the player it stands for; once all
are read, it stands and looks like the player. -/
def KeepsStep (l : Libm K) (m : GameMap) (s : Duel K) : Prop :=
  BothPlay s → ∀ p, InStep l m s p ∧ (unread s p = [] →
    ((s.peer p).game.world.get (.enemy 0)).position =
        (s.peer p.other).game.world.player.position ∧
      ((s.peer p).game.world.get (.enemy 0)).direction =
        (s.peer p.other).game.world.player.direction)

/-- **The replica keeps step.**  Two peers that have ended the handshake, with the same map, play
on for as long as both like.  In every state of every run the ticks of the packets that a peer
has not read would take its replica to where the player of the other peer stands and looks; when
it has read all of them, the replica is there. -/
theorem replica_in_step (l : Libm K) (hcos : l.cos 0 = 1) (hsin : l.sin 0 = 0) (m : GameMap)
    (hclear : ∀ first, Clear m (playerRadius : K) (spawnPosition first)) (s : Duel K)
    (hset : ∀ p, (s.peer p).setting.libm = l ∧ (s.peer p).setting.maps 3 = some m)
    (hs : BothEntered s) (es : List (Event (GameInput K))) :
    combat.machine.Always (KeepsStep l m) s es := by
  refine Machine.always_of_step (J := Lockstep l m) (fun u hu hboth p => ?_)
    (fun u e v hu h => hu.step h) es (hs.lockstep hcos hsin hclear hset)
  obtain ⟨-, part, hun, hrest, htwins⟩ := hu hboth p
  refine ⟨⟨part, hun, hrest, htwins⟩, fun hread => ?_⟩
  unfold unreadPackets at htwins
  rw [hread] at htwins
  exact ⟨htwins.position, htwins.direction⟩

end Exact

/-! ### Two peers that enter -/

/-- A peer at the last step of the handshake: the last letter of the response has arrived, or its
acknowledgement. -/
def lobby (p : Side) : Game ℚ :=
  { sceneStart.setState .mpMenu with
    net := { Net.start with
      state := .linked, idx := if p = .left then uartPasswordSize else 4
      inFifo := [entry (if p = .left then uartAck else 0x4e)] } }

/-- The peer after this step. -/
def entered (p : Side) : Game ℚ :=
  match gameHandler scene { polls := [], bots := fun _ => none } (lobby p) with
  | .ok g => g
  | .error _ => lobby p

/-- The two peers, with their first packets on the line. -/
def enteredDuel : Duel ℚ :=
  { peer := fun p => { setting := scene, game := entered p }
    wire := fun p => sentBytes (entered p.other).world.player }

/-- The starts of the players are clear of the walls of the arena. -/
theorem clear_spawnPosition (first : Bool) :
    Clear arena (playerRadius : ℚ) (spawnPosition first) := by
  have hradius : (0 : ℚ) ≤ playerRadius ∧ playerRadius ≤ (1 : ℚ) := by
    constructor <;> norm_num [playerRadius]
  exact clear_corner hradius (by cases first <;> decide +kernel)

theorem gameHandler_lobby (p : Side) :
    gameHandler scene { polls := [], bots := fun _ => none } (lobby p) = .ok (entered p) := by
  cases p with
  | left => rfl
  | right => rfl

theorem bothEntered_enteredDuel : BothEntered enteredDuel := by
  refine ⟨fun p => ?_, fun p => ⟨[], ⟨?_, by decide, rfl⟩, ?_⟩⟩
  · cases p with
    | left =>
      exact ⟨1, ⟨rfl, { polls := [], bots := fun _ => none }, lobby .left, _, rfl, rfl, rfl, rfl, rfl,
        gameHandler_lobby .left⟩, by decide⟩
    | right =>
      exact ⟨2, ⟨rfl, { polls := [], bots := fun _ => none }, lobby .right, _, rfl, rfl, rfl, rfl, rfl,
        gameHandler_lobby .right⟩, by decide⟩
  · cases p <;> rfl
  · cases p <;> rfl

/-- The first player walks ahead and turns, and the other peer reads the packets of it while its
own player makes a tick. -/
def stroll : List (Event (GameInput ℚ)) :=
  [.act .left (.kbd { (Controls.zero : Controls ℚ).kbdState with xPos := true }),
    .act .left (.mouse ⟨0, 0⟩ false (1 / 2)), .act .left silentTick, .deliver .right, .deliver .right,
    .deliver .right, .deliver .right, .act .right silentTick, .deliver .right, .deliver .right]

theorem replica_in_step_stroll :
    combat.machine.Always (KeepsStep scene.libm arena) enteredDuel stroll :=
  replica_in_step scene.libm rfl rfl arena clear_spawnPosition enteredDuel
    (fun _ => ⟨rfl, rfl⟩) bothEntered_enteredDuel stroll

end OperationMinix
