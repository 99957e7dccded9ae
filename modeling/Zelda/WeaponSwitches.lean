import Zelda.Client.Weapons
import Zelda.Foundations.Echo
import Zelda.Foundations.Runs
import Zelda.Server.Edits

/-!
# Weapon switches between a client and the server

A client with its own player and the server with its info of that player exchange `C_Move` and
`S_Move` over two channels that keep the order; the server may send its info at any time. Both sides
read the weapon off the attack of a message, so all of it is a value that comes back (`Zelda.Echo`):
in the end both sides have the weapon that the client sent last (`Tracks.agree`).

That is the weapon the user selected last if no frame sends anything while an older message has
replaced the weapon, and none selects the weapon that an older message has put there
(`weapons_of_run`).
-/

namespace Zelda.Server

open Protocol
open Client (WeaponType Frame Carries SceneManager)

/-! ## The two parties -/

/-- The client's own player, the server's info of it, the messages in both directions, and the
weapon that the user selected last. -/
structure Exchange where
  myPlayer : Client.GameObject
  up : List CMove := []
  info : ObjectInfo
  down : List ObjectInfo := []
  selected : WeaponType := .sword

namespace Exchange

variable {x x' x₀ : Exchange} {e : Echo WeaponType}

/-- One tick of the client: the player ticks and may send a packet. -/
def tick (x : Exchange) (frame : Frame) : Exchange :=
  { x with
    myPlayer := x.myPlayer.tick frame
    up := x.up ++ (x.myPlayer.tick frame).syncToServer.toList
    selected := (x.myPlayer.selects frame).getD x.selected }

/-- `Handle_C_Move`, for the oldest packet. -/
def handleCMove (x : Exchange) (pkt : CMove) (rest : List CMove) : Exchange :=
  { x with up := rest, info := moveInfo pkt x.info, down := x.down ++ [moveInfo pkt x.info] }

/-- `Handle_S_Move`, for the oldest message. -/
def handleSMove (x : Exchange) (info : ObjectInfo) (rest : List ObjectInfo) : Exchange :=
  { x with myPlayer := SceneManager.movedObject true info x.myPlayer, down := rest }

/-- The server sets the hp of the player and sends the info. -/
def hurt (x : Exchange) (hp : Int32) : Exchange :=
  { x with info := x.info.setHp hp, down := x.down ++ [x.info.setHp hp] }

/-- The server sends the info as it is. -/
def announce (x : Exchange) : Exchange := { x with down := x.down ++ [x.info] }

/-- The client lets its player be hit. -/
def onDamaged (x : Exchange) (attacker : Client.GameObject) : Exchange :=
  { x with myPlayer := (x.myPlayer.onDamaged attacker).1 }

/-- What can happen. -/
inductive Event
  | tick (frame : Frame)
  | cMove
  | sMove
  | hurt (hp : Int32)
  | announce
  | damaged (attacker : Client.GameObject)

/-- The steps of the two parties, in any order. -/
inductive Step : Exchange → Event → Exchange → Prop
  | tick {x : Exchange} {frame : Frame} : Step x (.tick frame) (x.tick frame)
  | cMove {x : Exchange} {pkt : CMove} {rest : List CMove} (hup : x.up = pkt :: rest) :
      Step x .cMove (x.handleCMove pkt rest)
  | sMove {x : Exchange} {info : ObjectInfo} {rest : List ObjectInfo}
      (hdown : x.down = info :: rest) : Step x .sMove (x.handleSMove info rest)
  | hurt {x : Exchange} {hp : Int32} : Step x (.hurt hp) (x.hurt hp)
  | announce {x : Exchange} : Step x .announce x.announce
  | damaged {x : Exchange} {attacker : Client.GameObject} :
      Step x (.damaged attacker) (x.onDamaged attacker)

/-- The player has just entered. -/
def start (id : ObjectId) (s : SessionId) : Exchange where
  myPlayer := Client.ownPlayer (enteringPlayer id s).info
  info := (enteringPlayer id s).info

/-- Nothing is under way. -/
def Quiet (x : Exchange) : Prop := x.up = [] ∧ x.down = []

/-- Both sides have the weapon that was selected last. -/
structure Agrees (x : Exchange) : Prop where
  weaponType : x.myPlayer.weaponType = x.selected
  statAttack : x.myPlayer.stat.attack = x.selected.baseStat.attack
  clientAttack : x.myPlayer.info.attack = x.selected.baseStat.attack
  serverAttack : x.info.attack = x.selected.baseStat.attack

/-- A frame that sends something without selecting a weapon finds the weapon that was selected last.
A frame that selects a weapon finds another one, or sends something else too, or selects what was
selected last. -/
def Holds (x : Exchange) : Event → Prop
  | .tick frame =>
    match x.myPlayer.selects frame with
    | some weaponType => weaponType ≠ x.myPlayer.weaponType ∨ x.myPlayer.Acts frame ∨
        weaponType = x.selected
    | none => x.myPlayer.Acts frame → x.myPlayer.weaponType = x.selected
  | _ => True

/-! ## The weapons come back -/

/-- The weapons of all infos are those of a value that comes back. -/
structure Tracks (x : Exchange) (e : Echo WeaponType) : Prop where
  isPlayer : x.myPlayer.kind.isPlayer = true
  armed : x.myPlayer.Armed
  client : x.myPlayer.weaponType = e.client
  up : List.Forall₂ (fun pkt => Carries pkt.info) x.up e.up
  server : Carries x.info e.server
  down : List.Forall₂ Carries x.down e.down
  settles : e.Settles

namespace Tracks

theorem start (id : ObjectId) (s : SessionId) :
    Tracks (start id s) ⟨.sword, [], .sword, [], .sword⟩ where
  isPlayer := rfl
  armed := (Client.GameObject.armed_refreshStatFromInfo (x := .sword) ⟨rfl, rfl⟩).1
  client := rfl
  up := .nil
  server := ⟨rfl, rfl⟩
  down := .nil
  settles := .start _

theorem forall₂_concat {α β : Type*} {R : α → β → Prop} {l : List α} {l' : List β} {a : α} {b : β}
    (h : List.Forall₂ R l l') (hab : R a b) : List.Forall₂ R (l ++ [a]) (l' ++ [b]) :=
  List.rel_append h (.cons hab .nil)

theorem isPlayer_tick (h : Tracks x e) (frame : Frame) :
    (x.tick frame).myPlayer.kind.isPlayer = true := by
  show (x.myPlayer.tick frame).kind.isPlayer = true
  rw [(Client.GameObject.evolves_tick x.myPlayer frame).kind]
  exact h.isPlayer

/-- A frame that sends something sends the weapon the player then has. -/
theorem tick_of_dirty (h : Tracks x e) {frame : Frame}
    (hdirty : (x.myPlayer.tick frame).dirtyFlag = true) :
    Tracks (x.tick frame) (e.send (x.myPlayer.tick frame).weaponType) where
  isPlayer := h.isPlayer_tick frame
  armed := h.armed.tick frame
  client := rfl
  up := by
    have hsync : (x.myPlayer.tick frame).syncToServer = some ⟨(x.myPlayer.tick frame).info⟩ :=
      if_pos hdirty
    show List.Forall₂ _ (x.up ++ (x.myPlayer.tick frame).syncToServer.toList) _
    rw [hsync]
    exact forall₂_concat h.up (h.armed.tick frame).carries
  server := h.server
  down := h.down
  settles := .send e _

/-- A frame that sends nothing keeps the weapon. -/
theorem tick_of_clean (h : Tracks x e) {frame : Frame}
    (hclean : (x.myPlayer.tick frame).dirtyFlag ≠ true) : Tracks (x.tick frame) e where
  isPlayer := h.isPlayer_tick frame
  armed := h.armed.tick frame
  client := by
    have hselects : ∀ y, x.myPlayer.selects frame = some y → y = x.myPlayer.weaponType := by
      intro y hy
      by_contra hne
      exact hclean ((h.armed.dirtyFlag_tick frame).2 (.inr ⟨y, hy, hne⟩))
    show (x.myPlayer.tick frame).weaponType = e.client
    rw [Client.GameObject.weaponType_tick, ← h.client]
    cases hy : x.myPlayer.selects frame with
    | none => rfl
    | some y => exact hselects y hy
  up := by
    have hsync : (x.myPlayer.tick frame).syncToServer = none := if_neg hclean
    show List.Forall₂ _ (x.up ++ (x.myPlayer.tick frame).syncToServer.toList) _
    rw [hsync, Option.toList_none, List.append_nil]
    exact h.up
  server := h.server
  down := h.down
  settles := h.settles

theorem cMove (h : Tracks x e) {pkt : CMove} {rest : List CMove} (hup : x.up = pkt :: rest) :
    ∃ y l, Tracks (x.handleCMove pkt rest) (e.serve y l) := by
  have hrel := h.up
  rw [hup] at hrel
  obtain ⟨y, l, hy, hl, he⟩ := List.forall₂_cons_left_iff.1 hrel
  have hmoved : Carries (moveInfo pkt x.info) y := by
    obtain ⟨hattack, hdefence⟩ := Client.resolveWeaponStat_attack y
    constructor
    · rw [moveInfo_attack, hy.attack, hattack]
    · rw [moveInfo_defence, hy.attack, hdefence]
  unfold handleCMove
  generalize moveInfo pkt x.info = info at hmoved ⊢
  exact ⟨y, l, h.isPlayer, h.armed, h.client, hl, hmoved, forall₂_concat h.down hmoved,
    h.settles.serve he⟩

theorem sMove (h : Tracks x e) {info : ObjectInfo} {rest : List ObjectInfo}
    (hdown : x.down = info :: rest) : ∃ y l, Tracks (x.handleSMove info rest) (e.receive y l) := by
  have hrel := h.down
  rw [hdown] at hrel
  obtain ⟨y, l, hy, hl, he⟩ := List.forall₂_cons_left_iff.1 hrel
  obtain ⟨harmed, hweapon⟩ := SceneManager.weaponType_movedObject h.isPlayer hy
  have hkind := SceneManager.kind_movedObject true info x.myPlayer
  unfold handleSMove
  generalize SceneManager.movedObject true info x.myPlayer = o at harmed hweapon hkind ⊢
  refine ⟨y, l, ?_, harmed, hweapon, h.up, h.server, hl, h.settles.receive he⟩
  rw [hkind]
  exact h.isPlayer

theorem hurt (h : Tracks x e) (hp : Int32) : Tracks (x.hurt hp) e.announce :=
  ⟨h.isPlayer, h.armed, h.client, h.up, h.server.setHp hp,
    forall₂_concat h.down (h.server.setHp hp), h.settles.announce⟩

theorem announce (h : Tracks x e) : Tracks x.announce e.announce :=
  ⟨h.isPlayer, h.armed, h.client, h.up, h.server, forall₂_concat h.down h.server,
    h.settles.announce⟩

theorem onDamaged (h : Tracks x e) (attacker : Client.GameObject) :
    Tracks (x.onDamaged attacker) e := by
  have hkind := (Client.GameObject.evolves_onDamaged x.myPlayer attacker).kind
  have harmed := h.armed.onDamaged attacker
  have hweapon := Client.GameObject.weaponType_onDamaged x.myPlayer attacker
  unfold Exchange.onDamaged
  generalize (x.myPlayer.onDamaged attacker).1 = o at hkind harmed hweapon ⊢
  refine ⟨?_, harmed, hweapon.trans h.client, h.up, h.server, h.down, h.settles⟩
  rw [hkind]
  exact h.isPlayer

/-- **Once nothing is under way, both sides have the weapon that was sent last.** -/
theorem agree (h : Tracks x e) (hquiet : x.Quiet) :
    x.myPlayer.weaponType = e.sent ∧ (e.sent = x.selected → x.Agrees) := by
  obtain ⟨hup, hdown⟩ := hquiet
  have heup : e.up = [] := by
    have hrel := h.up
    rwa [hup, List.forall₂_nil_left_iff] at hrel
  have hedown : e.down = [] := by
    have hrel := h.down
    rwa [hdown, List.forall₂_nil_left_iff] at hrel
  obtain ⟨hclient, hserver⟩ := h.settles.agree heup hedown
  have hweapon : x.myPlayer.weaponType = e.sent := h.client.trans hclient
  refine ⟨hweapon, fun hsel => ?_⟩
  rw [hsel] at hweapon hserver
  have hcarries := h.armed.carries
  have hstat := h.armed.baseStat.1
  have hinfo := h.server
  rw [hweapon] at hcarries hstat
  rw [hserver] at hinfo
  exact ⟨hweapon, hstat, hcarries.attack, hinfo.attack⟩

/-- What a frame sends and selects. -/
theorem tick (h : Tracks x e) (frame : Frame) : ∃ e', Tracks (x.tick frame) e' ∧
    (e.sent = x.selected → (e'.sent = (x.tick frame).selected ↔ x.Holds (.tick frame))) := by
  have hsends := h.armed.dirtyFlag_tick frame
  have hweapon := Client.GameObject.weaponType_tick x.myPlayer frame
  by_cases hdirty : (x.myPlayer.tick frame).dirtyFlag = true
  · refine ⟨_, h.tick_of_dirty hdirty, fun _ => ?_⟩
    show (x.myPlayer.tick frame).weaponType = (x.myPlayer.selects frame).getD x.selected ↔ _
    rw [hsends] at hdirty
    rw [hweapon]
    cases hselects : x.myPlayer.selects frame with
    | none =>
      have hacts : x.myPlayer.Acts frame := by simpa [hselects] using hdirty
      simp [Holds, hselects, hacts]
    | some y =>
      have hacts : x.myPlayer.Acts frame ∨ y ≠ x.myPlayer.weaponType := by
        simpa [hselects] using hdirty
      simp only [Holds, hselects, Option.getD_some, true_iff]
      exact hacts.elim (fun ha => .inr (.inl ha)) .inl
  · refine ⟨e, h.tick_of_clean hdirty, fun hsent => ?_⟩
    show e.sent = (x.myPlayer.selects frame).getD x.selected ↔ _
    rw [hsends] at hdirty
    obtain ⟨hacts, hsame⟩ := not_or.1 hdirty
    cases hselects : x.myPlayer.selects frame with
    | none => simp [Holds, hselects, hacts, hsent]
    | some y =>
      have hy : y = x.myPlayer.weaponType := by
        by_contra hne
        exact hsame ⟨y, hselects, hne⟩
      simp [Holds, hselects, hacts, hsent, ← hy, eq_comm]

end Tracks

/-! ## Every run -/

/-- **What a step does to the weapon that was sent last.** -/
theorem Step.tracks {ev : Event} (hs : Step x ev x') (h : Tracks x e) : ∃ e', Tracks x' e' ∧
    (e.sent = x.selected → (e'.sent = x'.selected ↔ x.Holds ev)) := by
  cases hs with
  | tick => exact h.tick _
  | cMove hup =>
    obtain ⟨y, l, h'⟩ := h.cMove hup
    exact ⟨_, h', fun hsent => iff_of_true hsent trivial⟩
  | sMove hdown =>
    obtain ⟨y, l, h'⟩ := h.sMove hdown
    exact ⟨_, h', fun hsent => iff_of_true hsent trivial⟩
  | hurt => exact ⟨_, h.hurt _, fun hsent => iff_of_true hsent trivial⟩
  | announce => exact ⟨_, h.announce, fun hsent => iff_of_true hsent trivial⟩
  | damaged => exact ⟨_, h.onDamaged _, fun hsent => iff_of_true hsent trivial⟩

/-- Messages are delivered, and nothing else happens. -/
def Delivers (_ : Exchange) (ev : Event) : Prop := ev = .cMove ∨ ev = .sMove

theorem Tracks.drain_down (h : Tracks x e) (hup : x.up = []) : ∃ x' e', Reaches Step Delivers x x' ∧
    Tracks x' e' ∧ x'.Quiet ∧ x'.selected = x.selected ∧ e'.sent = e.sent := by
  obtain ⟨down, hdown⟩ : ∃ down, x.down = down := ⟨_, rfl⟩
  induction down generalizing x e with
  | nil => exact ⟨x, e, .refl x, h, ⟨hup, hdown⟩, rfl, rfl⟩
  | cons info rest ih =>
    obtain ⟨y, l, h'⟩ := h.sMove hdown
    obtain ⟨x', e', hrun, hrest⟩ := ih h' hup rfl
    exact ⟨x', e', .head ⟨.sMove, .inr rfl, .sMove hdown⟩ hrun, hrest⟩

/-- **All messages can be delivered**, which changes neither what was selected nor what was sent. -/
theorem Tracks.drain (h : Tracks x e) : ∃ x' e', Reaches Step Delivers x x' ∧
    Tracks x' e' ∧ x'.Quiet ∧ x'.selected = x.selected ∧ e'.sent = e.sent := by
  obtain ⟨up, hup⟩ : ∃ up, x.up = up := ⟨_, rfl⟩
  induction up generalizing x e with
  | nil => exact h.drain_down hup
  | cons pkt rest ih =>
    obtain ⟨y, l, h'⟩ := h.cMove hup
    obtain ⟨x', e', hrun, hrest⟩ := ih h' rfl
    exact ⟨x', e', .head ⟨.cMove, .inl rfl, .cMove hup⟩ hrun, hrest⟩

theorem exists_tracks {id : ObjectId} {s : SessionId} (h : Reaches Step Holds (start id s) x) :
    ∃ e, Tracks x e ∧ e.sent = x.selected := by
  refine h.invariant (I := fun x => ∃ e, Tracks x e ∧ e.sent = x.selected) ?_
    ⟨_, Tracks.start id s, rfl⟩
  rintro x₁ ev x₂ ⟨e, he, hsent⟩ hholds hs
  obtain ⟨e', he', hiff⟩ := hs.tracks he
  exact ⟨e', he', (hiff hsent).2 hholds⟩

/-- **No weapon switch is lost** as long as every step meets the condition: once nothing is under
way, both sides have the weapon that was selected last. After a step that does not meet it,
delivering the messages leads to another weapon. -/
theorem weapons_of_run {id : ObjectId} {s : SessionId} (h : Reaches Step Holds (start id s) x) :
    (x.Quiet → x.Agrees) ∧
    ∀ ev x', Step x ev x' → ¬ x.Holds ev → ∃ x'', Reaches Step Delivers x' x'' ∧ x''.Quiet ∧
      x''.selected = x'.selected ∧ x''.myPlayer.weaponType ≠ x''.selected := by
  obtain ⟨e, he, hsent⟩ := exists_tracks h
  refine ⟨fun hquiet => (he.agree hquiet).2 hsent, fun ev x' hs hnot => ?_⟩
  obtain ⟨e', he', hiff⟩ := hs.tracks he
  obtain ⟨x'', e'', hrun, he'', hquiet, hsel, hsent'⟩ := he'.drain
  refine ⟨x'', hrun, hquiet, hsel, ?_⟩
  rw [(he''.agree hquiet).1, hsent', hsel]
  exact fun heq => hnot ((hiff hsent).1 heq)

/-! ## A switch that is kept and one that is lost -/

/-- A frame in which `W` is held. -/
def pressW : Frame := { keys := { w := true } }

/-- A frame in which `2`, the key of the bow, is pressed. -/
def press2 : Frame := { keys := { key2 := true } }

/-- The first client after a frame. -/
def firstTick (frame : Frame) : Exchange := (start 2 0).tick frame

/-- The first client has selected the bow, and both messages have arrived. -/
def switched : Exchange :=
  let x := firstTick press2
  let x := x.handleCMove ⟨x.myPlayer.info⟩ []
  x.handleSMove x.info []

theorem switched_agrees : switched.Agrees := by
  have htick : Reaches Step Holds (start 2 0) (firstTick press2) :=
    .single (e := .tick press2) (.inl (by decide)) .tick
  have hserved := htick.tail (e := Event.cMove) trivial (.cMove rfl)
  have hrun : Reaches Step Holds (start 2 0) switched :=
    hserved.tail (e := Event.sMove) trivial (.sMove rfl)
  exact (weapons_of_run hrun).1 ⟨rfl, rfl⟩

/-- The first client has turned, and selected the bow before the answer to that arrived. -/
def overtaken : Exchange :=
  let x := firstTick pressW
  let x := (x.handleCMove ⟨x.myPlayer.info⟩ []).tick press2
  x.handleSMove x.info []

/-- **A switch that is lost.** The player turns, and selects the bow while the answer to that is
under way. The answer gives it the sword again, and the next turn sends the sword to the server. -/
theorem not_agrees_overtaken : ¬ ∀ id s x, Reaches Step (fun _ _ => True) (start id s) x →
    x.Quiet → x.Agrees := by
  intro hall
  have hturned : Reaches Step (fun _ _ => True) (start 2 0) (firstTick pressW) :=
    .single (e := .tick pressW) trivial .tick
  have hserved := hturned.tail (e := Event.cMove) trivial (.cMove rfl)
  have hselected := hserved.tail (e := Event.tick press2) trivial .tick
  have hovertaken : Reaches Step (fun _ _ => True) (start 2 0) overtaken :=
    hselected.tail (e := Event.sMove) trivial (.sMove rfl)
  have hturned := hovertaken.tail (e := Event.tick pressW) trivial .tick
  have hserved := hturned.tail (e := Event.cMove) trivial (.cMove rfl)
  have hserved := hserved.tail (e := Event.cMove) trivial (.cMove rfl)
  have hanswered := hserved.tail (e := Event.sMove) trivial (.sMove rfl)
  have hanswered := hanswered.tail (e := Event.sMove) trivial (.sMove rfl)
  exact absurd (hall 2 0 _ hanswered ⟨rfl, rfl⟩).weaponType (by decide +kernel)

end Exchange

end Zelda.Server
