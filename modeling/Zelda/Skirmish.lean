import Zelda.Client.Combat
import Zelda.Server.Attrition
import Zelda.Server.Known
import Zelda.Swings

/-!
# Fights of one client

One client with its whole scene, the packets under way in both directions, and the server. The
client ticks its actors, lets them fight (`Zelda.Client.Combat`), draws them and handles what it is
sent in order; the server handles its packets in order and does whatever else it does.

When the client removes a creature, the packets under way that begin an attack on its cell are
charged with it (`charge`): if the creature is still in the room, they have to take its last hp.
-/

namespace Zelda.Server

open Protocol Std
open Client (SceneManager Frame Drift)

variable {P : Platform} {w w' : World} {s : SessionId} {id : ObjectId} {tilemap : Tilemap}

/-! ## Packets under way -/

namespace Skirmish

/-- A packet under way, with the creatures that it is charged with. -/
structure Packet where
  pkt : CMove
  owes : List ObjectId := []
  deriving DecidableEq

/-- The states that the room stores, after it has handled the packet. -/
def after (state : ObjectId → Option Int32) (pkt : CMove) : ObjectId → Option Int32 :=
  Function.update state pkt.info.objectid (some pkt.info.state)

/-- The packet turns the state that is stored to `SKILL`. -/
def Begins (state : ObjectId → Option Int32) (pkt : CMove) : Prop :=
  state pkt.info.objectid ≠ some skill ∧ pkt.info.state = skill

instance (state : ObjectId → Option Int32) (pkt : CMove) : Decidable (Begins state pkt) :=
  inferInstanceAs (Decidable (_ ∧ _))

/-- The packets that begin an attack on the cell, when they are handled one after the other. -/
def assaults (cellPos : Vec2Int) : (ObjectId → Option Int32) → List Packet → List CMove
  | _, [] => []
  | state, p :: ps =>
    if Begins state p.pkt ∧ p.pkt.info.getFrontCellPos = cellPos then
      p.pkt :: assaults cellPos (after state p.pkt) ps
    else assaults cellPos (after state p.pkt) ps

/-- Charges the packets that begin an attack on the cell with a creature. -/
def charge (id : ObjectId) (cellPos : Vec2Int) :
    (ObjectId → Option Int32) → List Packet → List Packet
  | _, [] => []
  | state, p :: ps =>
    (if Begins state p.pkt ∧ p.pkt.info.getFrontCellPos = cellPos then
      { p with owes := id :: p.owes }
    else p) :: charge id cellPos (after state p.pkt) ps

/-- The damage that the packets charged with a creature do to it. -/
def due (id : ObjectId) (defence : Int32) (up : List Packet) : ℤ :=
  (up.map fun p => if id ∈ p.owes then swingDamage p.pkt defence else 0).sum

end Skirmish

/-! ## The two parties -/

/-- The client of a session, the actors that were removed in the pass under way, how many of the
messages to the session it has handled, its packets under way, the server, and the ids of the
creatures that the client has removed by itself. -/
structure Skirmish where
  client : SceneManager
  gone : List Client.GameObject := []
  handled : ℕ
  up : List Skirmish.Packet := []
  world : World
  removed : List ObjectId := []

namespace Skirmish

variable {k k' k₀ : Skirmish}

/-- The packets under way, with those charged that have to fell the creature that was removed. -/
def charged (k : Skirmish) : Option Client.GameObject → List Packet
  | none => k.up
  | some v => charge v.info.objectid v.info.getCellPos k.world.playerState k.up

/-- The client after the tick of an actor. -/
def ticked (k : Skirmish) (t : Client.DevScene.Ticked) : Skirmish :=
  { k with
    client := { k.client with scene := t.scene }
    gone := k.gone ++ t.removed.toList
    up := k.charged t.removed ++ t.sent.toList.map ({ pkt := · })
    removed := k.removed ++ t.removed.toList.map (·.info.objectid) }

/-- What can happen. -/
inductive Event
  | tick (id : ObjectId) (frame : Frame) (drift : Drift)
  | tickGone (o : Client.GameObject) (frame : Frame) (drift : Drift)
  | endPass
  | render
  | message
  | cMove
  | server (ev : ServerEvent)

/-- The event handles a packet of this session. -/
def Receives (s : SessionId) : ServerEvent → Prop
  | .receiveCMove t _ => t = s
  | _ => False

instance (s : SessionId) (ev : ServerEvent) : Decidable (Receives s ev) :=
  match ev with
  | .receiveCMove t _ => inferInstanceAs (Decidable (t = s))
  | .processConnect _ | .disconnect _ | .processSend _ _ | .update _ =>
    inferInstanceAs (Decidable False)

/-- The steps of the client of the session and the server, in any order. A message is handled as
long as its handler reads no flipbook out of bounds. -/
inductive Step (P : Platform) (s : SessionId) : Skirmish → Event → Skirmish → Prop
  | tick {k : Skirmish} {id : ObjectId} {frame : Frame} {drift : Drift} :
      Step P s k (.tick id frame drift) (k.ticked (k.client.scene.tickActor id frame drift))
  | tickGone {k : Skirmish} {o : Client.GameObject} {frame : Frame} {drift : Drift}
      (hgone : o ∈ k.gone) :
      Step P s k (.tickGone o frame drift) (k.ticked (k.client.scene.tickGone o frame drift))
  | endPass {k : Skirmish} : Step P s k .endPass { k with gone := [] }
  /-- `Scene::Render` sorts the objects by where they are drawn, so any order may come out. -/
  | render {k : Skirmish} {objects : List Client.Actor}
      (hperm : objects.Perm k.client.scene.objects) :
      Step P s k .render
        { k with client := { k.client with scene := k.client.scene.mapObjects fun _ => objects } }
  | message {k : Skirmish} {msg : ServerPacket} {client : SceneManager}
      (hmsg : (sentTo s k.world.trace)[k.handled]? = some msg)
      (hclient : k.client.handlePacket? msg = some client) :
      Step P s k .message { k with client := client, handled := k.handled + 1 }
  | cMove {k : Skirmish} {p : Packet} {rest : List Packet} {w' : World} (hup : k.up = p :: rest)
      (hstep : ServerStep P k.world (.receiveCMove s p.pkt) w') :
      Step P s k .cMove { k with up := rest, world := w' }
  | server {k : Skirmish} {ev : ServerEvent} {w' : World} (hother : ¬ Receives s ev)
      (hstep : ServerStep P k.world ev w') : Step P s k (.server ev) { k with world := w' }

/-- The session has a player in the room, and its client shows the room as it is, its own player
included. -/
def Agrees (s : SessionId) (k : Skirmish) : Prop :=
  ∃ pid, k.world.room.session? pid = some s ∧
    Client.Mirrors pid (fun _ => False) k.client k.world.room.view ∧
    ∀ info o, k.world.room.view pid = some info → k.client.scene.getObject pid = some o →
      Client.Shows o info

/-- A reachable server and a client that agrees with it, with nothing under way. -/
structure Starts (P : Platform) (tilemap : Tilemap) (s : SessionId) (k : Skirmish) : Prop where
  world : ServerReachable P tilemap k.world
  agrees : Agrees s k
  handled : k.handled = (sentTo s k.world.trace).length
  gone : k.gone = []
  up : k.up = []
  removed : k.removed = []

/-- Nothing is under way. -/
def Quiet (s : SessionId) (k : Skirmish) : Prop :=
  k.up = [] ∧ (sentTo s k.world.trace)[k.handled]? = none

instance (s : SessionId) (k : Skirmish) : Decidable (Quiet s k) :=
  inferInstanceAs (Decidable (_ ∧ _))

/-- Every creature that the client has removed by itself has left the room. -/
def Foretold (k : Skirmish) : Prop := ∀ id ∈ k.removed, k.world.room.findObject id = none

/-! ## Who may be removed -/

/-- A hit of the server has taken the last hp of the creature, or its removal has been announced, or
it is a monster and the attacks under way on its cell do enough damage to fell it. -/
def Doomed (k : Skirmish) (v : Client.GameObject) : Prop :=
  k.world.Fallen v.info.objectid ∨
    ∃ m, k.world.room.info? (.monster v.info.objectid) = some m ∧ m.hp.toInt ≤
      ((assaults v.info.getCellPos k.world.playerState k.up).map (swingDamage · m.defence)).sum

instance (k : Skirmish) (v : Client.GameObject) : Decidable (k.Doomed v) :=
  inferInstanceAs (Decidable (_ ∨ ∃ m ∈ k.world.room.info? (.monster v.info.objectid), m.hp.toInt ≤
    ((assaults v.info.getCellPos k.world.playerState k.up).map (swingDamage · m.defence)).sum))

/-- The packet moves a player of the room in front of the monster. -/
def Meets (w : World) (pkt : CMove) (id : ObjectId) : Prop :=
  pkt.info.objectid ∈ w.room.players ∧
    (w.modifyInfo (.player pkt.info.objectid) (moveInfo pkt)).room.getGameObjectAt
      pkt.info.getFrontCellPos = some (.monster id)

instance (w : World) (pkt : CMove) (id : ObjectId) : Decidable (Meets w pkt id) :=
  inferInstanceAs (Decidable (_ ∧ _))

/-- The last hp on the client is taken only of a creature that is doomed. Until the packets that are
charged with it have been handled, as long as the room has the creature, it is where they attack it,
no other packet names it, and no other session names the player that attacks. -/
def Justified (k : Skirmish) : Event → Prop
  | .tick id frame _ => ∀ o v, k.client.scene.getObject id = some o →
      k.client.scene.Fatal o frame v → k.Doomed v
  | .tickGone o frame _ => ∀ v, k.client.scene.Fatal o frame v → k.Doomed v
  | .cMove => ∀ p rest, k.up = p :: rest →
      (∀ id ∈ p.owes, k.world.room.findObject id ≠ none → Meets k.world p.pkt id) ∧
      ∀ q ∈ rest, ∀ id ∈ q.owes, k.world.room.findObject id ≠ none → p.pkt.info.objectid ≠ id
  | .server ev => ∀ q ∈ k.up, ∀ id ∈ q.owes, k.world.room.findObject id ≠ none →
      ¬ Names id ev ∧ ¬ Names q.pkt.info.objectid ev
  | _ => True

end Skirmish

end Zelda.Server
