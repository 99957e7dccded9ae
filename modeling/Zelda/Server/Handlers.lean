import Zelda.Server.Broadcast

/-!
# Entering, moving and fighting

The operations of `GameRoom` and `Player` that connections and packets start. Each takes the server
from one state to the next, and `Except` carries the runs that have no next state.
-/

namespace Zelda.Server

open Protocol

variable (P : Platform)

/-! ## Connecting -/

/-- `GameRoom::AddObject`. The switch on `objecttype` finds the class the object was created
with. -/
def addObject (gameObject : Player ⊕ Monster) (w : World) : Result :=
  match gameObject with
  | .inl player => broadcast P (.sAddObject [player.info]) (w.setRoom (w.room.addPlayer player))
  | .inr monster => broadcast P (.sAddObject [monster.info]) (w.setRoom (w.room.addMonster monster))

/-- The player `EnterRoom` creates for a session. -/
def enteringPlayer (id : ObjectId) (s : SessionId) : Player :=
  let player := createPlayer id s
  { player with info := (player.info.setCellPos ⟨5, 5⟩).applyWeaponStat swordStat }

/-- The session and its player are made to point to each other. -/
def World.link (w : World) (s : SessionId) : World :=
  let id := w.idGenerator
  { w.setSession s { w.sessions s with gameRoom := true, player := some id } with
    idGenerator := id + 1 }

/-- `GameRoom::EnterRoom` -/
def enterRoom (s : SessionId) (w : World) : Result := do
  let player := enteringPlayer w.idGenerator s
  let w := w.link s
  let w ← send P s (.sMyPlayer player.info) w
  let w ← send P s (.sAddObject w.room.infos) w
  addObject P (.inl player) w

/-- `GameSession::OnConnected` -/
def onConnected (s : SessionId) (w : World) : Result := do
  let w ← send P s (.sEnterGame true 0) w
  enterRoom P s w

/-- `Session::ProcessConnect`. A receive that fails at once in the `RegisterRecv` at its end is a
disconnect that follows. -/
def processConnect (s : SessionId) (w : World) : Result :=
  onConnected P s (w.setSession s { w.sessions s with connected := true })

/-- `Session::ProcessSend` -/
def processSend (s : SessionId) (numOfBytes : ℕ) (w : World) : Result :=
  let g := { w.sessions s with sendEvent := [] }
  if numOfBytes = 0 then
    disconnect P s (w.setSession s g)
  else if g.sendQueue = [] then
    .ok (w.setSession s { g with sendRegistered := false })
  else
    Reentrant.registerSend P (disconnect P) s (w.setSession s g)

/-! ## Fighting -/

/-- The damage of one hit: `max<int32>(1, attack - defence)`. -/
def damageOf (attack defence : Int32) : Int32 :=
  if 1 < attack - defence then attack - defence else 1

/-- The victim's hp before the damage, cut to its maximum. -/
def clampedHp (info : ObjectInfo) : Int32 :=
  if 0 < info.maxhp ∧ info.maxhp < info.hp then info.maxhp else info.hp

/-- The victim's hp after the damage. -/
def hpAfter (attacker victim : ObjectInfo) : Int32 :=
  let newHp := clampedHp victim - damageOf attacker.attack victim.defence
  if newHp < 0 then 0 else newHp

/-- `GameRoom::ApplyDamage` -/
def applyDamage (attacker victim : ObjectRef) (w : World) : Result :=
  match w.room.object? attacker, w.room.object? victim with
  | some a, some v =>
    if a.room = false ∨ v.room = false then
      .ok w
    else
      let newHp := hpAfter a.info v.info
      let w := w.log (.applyDamage attacker victim a.info.attack v.info.defence (clampedHp v.info)
        (damageOf a.info.attack v.info.defence))
      let w := w.modifyInfo victim (·.setHp newHp)
      if newHp ≤ 0 then removeObject P v.info.objectid w
      else broadcast P (.sMove (v.info.setHp newHp)) w
  | _, _ => .ok w

/-- `Player::ProcessSkill` -/
def processSkill (ref : ObjectRef) (w : World) : Result :=
  let w := w.log (.processSkill ref.id)
  match w.room.object? ref with
  | none => .ok w
  | some player =>
    if player.room = false then .ok w
    else
      match w.room.getGameObjectAt player.info.getFrontCellPos with
      | none => .ok w
      | some target =>
        match w.room.object? target with
        | none => .ok w
        | some t =>
          if t.info.objecttype ≠ objectTypeMonster then .ok w
          else if t.room ≠ player.room then .ok w
          else
            match w.room.findObject player.info.objectid with
            | none => .ok w
            | some self => applyDamage P self target w

/-! ## Moving -/

/-- The first part of what `Handle_C_Move` writes: the fields of the packet, the template of the
weapon its attack names, and the maximum hp it asks for. -/
def overwriteInfo (pkt : CMove) (info : ObjectInfo) : ObjectInfo :=
  let info := ((info.setState pkt.info.state).setDir pkt.info.dir).setCellPos pkt.info.getCellPos
  let info := info.syncWeaponTemplate (resolveWeaponStat pkt.info.attack)
  if 0 < pkt.info.maxhp ∧ pkt.info.maxhp ≠ info.maxhp then info.setMaxhp pkt.info.maxhp else info

/-- The second part: the hp is cut to the maximum, or to that of the weapon if there is none. -/
def clampHp (weaponStat : WeaponStatData) (info : ObjectInfo) : ObjectInfo :=
  let maxHp := if info.maxhp ≤ 0 then weaponStat.maxHp else info.maxhp
  let info := if 0 < maxHp ∧ maxHp < info.hp then info.setHp maxHp else info
  if info.hp < 0 then info.setHp 0 else info

/-- What `Handle_C_Move` writes to the object's info. -/
def moveInfo (pkt : CMove) (info : ObjectInfo) : ObjectInfo :=
  clampHp (resolveWeaponStat pkt.info.attack) (overwriteInfo pkt info)

/-- `GameRoom::Handle_C_Move`. The object is kept alive by a pointer, so its info can be read at the
end even if it has left the room. -/
def handleCMove (pkt : CMove) (w : World) : Result :=
  match w.room.findObject pkt.info.objectid with
  | none => .ok w
  | some ref =>
    match w.room.info? ref with
    | none => .ok w
    | some prev => do
      let info := moveInfo pkt prev
      let w := w.modifyInfo ref (moveInfo pkt)
      let w ← (if info.objecttype = objectTypePlayer ∧ prev.state ≠ skill ∧ info.state = skill then
          processSkill P ref w
        else .ok w)
      broadcast P (.sMove ((w.room.info? ref).getD info)) w

/-- `ServerPacketHandler::Handle_C_Move`, for a packet that was parsed. -/
def receiveCMove (s : SessionId) (pkt : CMove) (w : World) : Result :=
  if (w.sessions s).gameRoom then handleCMove P pkt w else .ok w

end Zelda.Server
