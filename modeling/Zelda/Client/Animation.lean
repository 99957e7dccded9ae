import Zelda.Client.DevScene

/-!
# The flipbooks that objects read

`UpdateAnimation` reads one of the arrays of flipbooks at the direction of the object, and the
setters of state and direction call it. The reads of every handler are listed beside it (`reads`):
each is made at a direction that came with the message, or at the one the object has.

An object whose direction is one of the four reads in bounds (`GameObject.isDir_reads`). A scene of
such objects stays one as long as the messages carry such directions (`SceneManager.Directed`), and
no message and no tick reads out of bounds in it (`isDir_runReads`).
-/

namespace Zelda.Client

open Protocol

variable {o : GameObject} {m : SceneManager} {info : ObjectInfo} {pkt : ServerPacket}

/-- An array of flipbooks and the index it is read at. -/
abbrev Read := FlipbookArray × Int32

/-! ## Setters -/

namespace GameObject

/-- What `UpdateAnimation` reads. -/
def reads (o : GameObject) : List Read :=
  if o.kind.isPlayer then
    if o.info.state = idle then [(.idle, o.info.dir)]
    else if o.info.state = move then [(.move, o.info.dir)]
    else if o.info.state = skill then [(o.attackFlipbook, o.info.dir)]
    else []
  else [(.move, o.info.dir)]

/-- What `SetState` reads. -/
def setStateReads (o : GameObject) (state : Int32) : List Read :=
  if o.info.state = state then [] else { o with info := o.info.setState state }.reads

/-- What `SetDir` reads. -/
def setDirReads (o : GameObject) (dir : Int32) : List Read :=
  { o with info := o.info.setDir dir }.reads

/-- What `BeginPlay` reads. -/
def beginPlayReads (o : GameObject) : List Read :=
  o.setStateReads move ++ (o.setState move).setStateReads idle ++
    ((o.setState move).setState idle).setStateReads move ++
    (((o.setState move).setState idle).setState move).setStateReads idle

/-- An object reads at its own direction. -/
theorem snd_of_mem_reads {a : Read} (h : a ∈ o.reads) : a.2 = o.info.dir := by
  unfold reads at h
  split_ifs at h <;> simp_all

theorem isDir_reads (h : IsDir o.info.dir) : ∀ a ∈ o.reads, IsDir a.2 := by
  intro a ha
  rwa [snd_of_mem_reads ha]

/-- A monster reads in every state, a player in three. -/
theorem exists_mem_reads (h : o.kind.isPlayer = false ∨ o.info.state = idle ∨
    o.info.state = move ∨ o.info.state = skill) : ∃ a ∈ o.reads, a.2 = o.info.dir := by
  unfold reads
  split_ifs with hplayer hidle hmove hskill
  · exact ⟨_, List.mem_singleton_self _, rfl⟩
  · exact ⟨_, List.mem_singleton_self _, rfl⟩
  · exact ⟨_, List.mem_singleton_self _, rfl⟩
  · rcases h with h | h | h | h
    · exact absurd hplayer (Bool.eq_false_iff.1 h)
    · exact absurd h hidle
    · exact absurd h hmove
    · exact absurd h hskill
  · exact ⟨_, List.mem_singleton_self _, rfl⟩

theorem isDir_setStateReads {state : Int32} (h : IsDir o.info.dir) :
    ∀ a ∈ o.setStateReads state, IsDir a.2 := by
  unfold setStateReads
  split
  · simp
  · exact isDir_reads h

theorem isDir_setDirReads {dir : Int32} (h : IsDir dir) : ∀ a ∈ o.setDirReads dir, IsDir a.2 :=
  isDir_reads h

@[simp] theorem dir_setState (o : GameObject) (state : Int32) :
    (o.setState state).info.dir = o.info.dir := by
  rw [info_setState]
  rfl

@[simp] theorem dir_setDir (o : GameObject) (dir : Int32) : (o.setDir dir).info.dir = dir := by
  rw [info_setDir]
  rfl

@[simp] theorem dir_setCellPos (o : GameObject) (cellPos : Server.Vec2Int) :
    (o.setCellPos cellPos).info.dir = o.info.dir := rfl

theorem dir_refreshStatFromInfo (o : GameObject) :
    o.refreshStatFromInfo.info.dir = o.info.dir := by
  rw [refreshStatFromInfo, syncInfoWithStat]

theorem isDir_beginPlayReads (h : IsDir o.info.dir) : ∀ a ∈ o.beginPlayReads, IsDir a.2 := by
  intro a ha
  simp only [beginPlayReads, List.mem_append] at ha
  rcases ha with ((ha | ha) | ha) | ha <;>
  · refine isDir_setStateReads ?_ a ha
    simp only [dir_setState, h]

end GameObject

/-! ## Handlers -/

/-- What `SpawnObject` reads. -/
def spawnReads (kind : Kind) (pos : Server.Vec2Int) : List Read :=
  ((GameObject.new kind).setCellPos pos).beginPlayReads

/-- What `Handle_S_AddObject` reads for an object. -/
def addedReads (info : ObjectInfo) : List Read :=
  if info.objecttype = objectTypePlayer then
    let player := { spawnObject .player info.getCellPos with info := info }.refreshStatFromInfo
    spawnReads .player info.getCellPos ++ player.setDirReads info.dir ++
      (player.setDir info.dir).setStateReads info.state
  else if info.objecttype = objectTypeMonster then
    let monster := { spawnObject .monster info.getCellPos with info := info }
    let monster := { monster with stat := GameObject.statFrom monster.stat info }
    spawnReads .monster info.getCellPos ++ monster.setDirReads info.dir ++
      (monster.setDir info.dir).setStateReads info.state
  else []

/-- What `HandlePacket` reads. -/
def SceneManager.reads (m : SceneManager) : ServerPacket → List Read
  | .sEnterGame _ _ => []
  | .sMyPlayer info => spawnReads .myPlayer info.getCellPos
  | .sAddObject objects => objects.flatMap fun info =>
      if m.getMyPlayerId = info.objectid then [] else addedReads info
  | .sRemoveObject _ => []
  | .sMove info =>
    match m.scene.getObject info.objectid with
    | none => []
    | some o =>
      if m.getMyPlayerId = info.objectid then []
      else
        let o := SceneManager.takeStat info o
        o.setDirReads info.dir ++ (o.setDir info.dir).setStateReads info.state

/-- The infos that a message carries. -/
def infosOf : ServerPacket → List ObjectInfo
  | .sMyPlayer info => [info]
  | .sAddObject objects => objects
  | .sMove info => [info]
  | _ => []

/-- Every info of the message has one of the four directions. -/
def DirectedPacket (pkt : ServerPacket) : Prop := ∀ info ∈ infosOf pkt, IsDir info.dir

theorem isDir_spawnReads (kind : Kind) (pos : Server.Vec2Int) :
    ∀ a ∈ spawnReads kind pos, IsDir a.2 := by
  refine GameObject.isDir_beginPlayReads ?_
  rw [GameObject.dir_setCellPos]
  cases kind <;> decide

theorem isDir_addedReads (h : IsDir info.dir) : ∀ a ∈ addedReads info, IsDir a.2 := by
  unfold addedReads
  split
  · simp only [List.mem_append]
    rintro a ((ha | ha) | ha)
    · exact isDir_spawnReads _ _ a ha
    · exact GameObject.isDir_setDirReads h a ha
    · exact GameObject.isDir_setStateReads (by rwa [GameObject.dir_setDir]) a ha
  · split
    · simp only [List.mem_append]
      rintro a ((ha | ha) | ha)
      · exact isDir_spawnReads _ _ a ha
      · exact GameObject.isDir_setDirReads h a ha
      · exact GameObject.isDir_setStateReads (by rwa [GameObject.dir_setDir]) a ha
    · simp

/-- **A message with directions in range makes no handler read out of bounds.** -/
theorem SceneManager.isDir_reads (m : SceneManager) (h : DirectedPacket pkt) :
    ∀ a ∈ m.reads pkt, IsDir a.2 := by
  cases pkt with
  | sEnterGame | sRemoveObject => simp [reads]
  | sMyPlayer info => exact isDir_spawnReads _ _
  | sAddObject objects =>
    intro a ha
    obtain ⟨info, hinfo, ha⟩ := List.mem_flatMap.1 ha
    split at ha
    · cases ha
    · exact isDir_addedReads (h info hinfo) a ha
  | sMove info =>
    have hdir : IsDir info.dir := h info List.mem_cons_self
    unfold reads
    simp only
    split
    · simp
    · split
      · simp
      · simp only [List.mem_append]
        rintro a (ha | ha)
        · exact GameObject.isDir_setDirReads hdir a ha
        · exact GameObject.isDir_setStateReads (by rwa [GameObject.dir_setDir]) a ha

/-- **An `S_Move` reads at its direction**, whatever state the object was in. -/
theorem SceneManager.exists_mem_reads_sMove (ho : m.scene.getObject info.objectid = some o)
    (hne : m.getMyPlayerId ≠ info.objectid) (h : o.kind.isPlayer = false ∨ info.state = idle ∨
      info.state = move ∨ info.state = skill) : ∃ a ∈ m.reads (.sMove info), a.2 = info.dir := by
  have hreads : m.reads (.sMove info) =
      (SceneManager.takeStat info o).setDirReads info.dir ++
        ((SceneManager.takeStat info o).setDir info.dir).setStateReads info.state := by
    simp only [SceneManager.reads, ho, if_neg hne]
  have hkind : (SceneManager.takeStat info o).kind = o.kind := SceneManager.kind_takeStat info o
  generalize SceneManager.takeStat info o = taken at hreads hkind
  rw [hreads]
  by_cases hsame : (taken.setDir info.dir).info.state = info.state
  · -- the state stays, and `SetDir` has read at it
    have hstate : taken.info.state = info.state := by
      rwa [GameObject.info_setDir] at hsame
    obtain ⟨a, ha, hdir⟩ :=
      GameObject.exists_mem_reads (o := { taken with info := taken.info.setDir info.dir }) (by
        rw [← hkind, ← hstate] at h
        exact h)
    exact ⟨a, List.mem_append_left _ ha, hdir⟩
  · obtain ⟨a, ha, hdir⟩ := GameObject.exists_mem_reads (o := { taken.setDir info.dir with
      info := (taken.setDir info.dir).info.setState info.state }) (by
        rw [← hkind, ← GameObject.kind_setDir taken info.dir] at h
        exact h)
    refine ⟨a, List.mem_append_right _ ?_, ?_⟩
    · rw [GameObject.setStateReads, if_neg hsame]
      exact ha
    · rw [hdir, GameObject.info_setDir]
      rfl

/-! ## The client as it runs -/

namespace SceneManager

/-- Every object of the scene has one of the four directions. -/
def Directed (m : SceneManager) : Prop :=
  ∀ o, .gameObject o ∈ m.scene.objects → IsDir o.info.dir

theorem directed_init : ({} : SceneManager).Directed := by
  intro o ho
  have hobjects : ({} : SceneManager).scene.objects = [.other "TilemapActor"] := rfl
  rw [hobjects] at ho
  simp at ho

theorem Directed.getObject (h : m.Directed) {id : ObjectId} (ho : m.scene.getObject id = some o) :
    IsDir o.info.dir := by
  obtain ⟨actor, hactor, hobject⟩ := Option.bind_eq_some_iff.1 ho
  cases actor with
  | gameObject o' =>
    obtain rfl := Option.some.inj hobject
    exact h o' (List.mem_of_find?_eq_some hactor)
  | other name => cases hobject

theorem Directed.addActor (h : m.Directed) (ho : IsDir o.info.dir) (myPlayer : Option ObjectId) :
    Directed ⟨m.scene.addActor o, myPlayer⟩ := by
  intro o' ho'
  rw [DevScene.addActor, DevScene.objects_mapObjects, List.mem_append, List.mem_singleton] at ho'
  rcases ho' with ho' | ho'
  · exact h o' ho'
  · obtain rfl := Actor.gameObject.inj ho'
    exact ho

theorem Directed.removeObject (h : m.Directed) (id : ObjectId) :
    Directed { m with scene := m.scene.removeObject id } := by
  intro o ho
  rw [DevScene.removeObject, DevScene.objects_mapObjects] at ho
  exact h o (Keyed.mem_of_mem_remove ho)

theorem Directed.modifyObject (h : m.Directed) (id : ObjectId) {f : GameObject → GameObject}
    (hf : ∀ o, IsDir o.info.dir → IsDir (f o).info.dir) :
    Directed { m with scene := m.scene.modifyObject id f } := by
  intro o ho
  rw [DevScene.modifyObject, DevScene.objects_mapObjects] at ho
  rcases Keyed.mem_adjust ho with ho | ⟨actor, hactor, heq⟩
  · exact h o ho
  · cases actor with
    | gameObject o' =>
      obtain rfl := Actor.gameObject.inj heq
      exact hf o' (h o' hactor)
    | other name => cases heq

theorem dir_takeStat (info : ObjectInfo) (o : GameObject) :
    (takeStat info o).info.dir = o.info.dir := by
  unfold takeStat
  split <;> rfl

theorem isDir_movedObject (isMyPlayer : Bool) (hinfo : IsDir info.dir) (ho : IsDir o.info.dir) :
    IsDir (movedObject isMyPlayer info o).info.dir := by
  unfold movedObject
  simp only
  split
  · rwa [dir_takeStat]
  · rwa [GameObject.dir_setCellPos, GameObject.dir_setState, GameObject.dir_setDir]

theorem isDir_addedObject (hinfo : IsDir info.dir) (ho : addedObject info = some o) :
    IsDir o.info.dir := by
  unfold addedObject at ho
  split at ho
  · obtain rfl := Option.some.inj ho
    rwa [GameObject.dir_setState, GameObject.dir_setDir]
  · split at ho
    · obtain rfl := Option.some.inj ho
      rwa [GameObject.dir_setState, GameObject.dir_setDir]
    · cases ho

/-- A message with directions in range keeps the scene in order. -/
theorem Directed.handlePacket (h : m.Directed) (hpkt : DirectedPacket pkt) :
    (m.handlePacket pkt).Directed := by
  cases pkt with
  | sEnterGame => exact h
  | sMyPlayer info =>
    refine h.addActor ?_ _
    rw [GameObject.dir_refreshStatFromInfo]
    exact hpkt info List.mem_cons_self
  | sAddObject objects =>
    refine List.foldlRecOn objects SceneManager.addObject h fun m hm info hinfo => ?_
    unfold SceneManager.addObject
    split
    · exact hm
    · split
      · rename_i o ho
        exact hm.addActor (isDir_addedObject (hpkt info hinfo) ho) _
      · exact hm
  | sRemoveObject ids =>
    refine List.foldlRecOn ids SceneManager.removeObject h fun m hm id _ => ?_
    unfold SceneManager.removeObject
    split
    · exact hm.removeObject _
    · exact hm
  | sMove info =>
    have hinfo : IsDir info.dir := hpkt info List.mem_cons_self
    show (m.handleSMove info).Directed
    unfold handleSMove
    split
    · exact h
    · exact h.modifyObject _ fun o ho => isDir_movedObject _ hinfo ho

/-- What makes an object of the client read a flipbook: a message, or its own tick, which sets a
state, or a direction that the code names. -/
inductive ClientEvent
  | packet (pkt : ServerPacket)
  | setState (id : ObjectId) (state : Int32)
  | setDir (id : ObjectId) (dir : Int32)

/-- The scene after an event. -/
def act (m : SceneManager) : ClientEvent → SceneManager
  | .packet pkt => m.handlePacket pkt
  | .setState id state => { m with scene := m.scene.modifyObject id (·.setState state) }
  | .setDir id dir => { m with scene := m.scene.modifyObject id (·.setDir dir) }

/-- What an event reads. -/
def eventReads (m : SceneManager) : ClientEvent → List Read
  | .packet pkt => m.reads pkt
  | .setState id state => (m.scene.getObject id).toList.flatMap (·.setStateReads state)
  | .setDir id dir => (m.scene.getObject id).toList.flatMap (·.setDirReads dir)

/-- What a sequence of events reads. -/
def runReads (m : SceneManager) : List ClientEvent → List Read
  | [] => []
  | e :: es => m.eventReads e ++ (m.act e).runReads es

/-- The directions of an event are in range. -/
def ClientEvent.Directed : ClientEvent → Prop
  | .packet pkt => DirectedPacket pkt
  | .setState _ _ => True
  | .setDir _ dir => IsDir dir

theorem Directed.act {e : ClientEvent} (h : m.Directed) (he : e.Directed) : (m.act e).Directed := by
  cases e with
  | packet pkt => exact h.handlePacket he
  | setState id state =>
    refine h.modifyObject id fun o ho => ?_
    rwa [GameObject.dir_setState]
  | setDir id dir =>
    refine h.modifyObject id fun o _ => ?_
    rw [GameObject.dir_setDir]
    exact he

theorem Directed.isDir_eventReads {e : ClientEvent} (h : m.Directed) (he : e.Directed) :
    ∀ a ∈ m.eventReads e, IsDir a.2 := by
  cases e with
  | packet pkt => exact m.isDir_reads he
  | setState id state =>
    intro a ha
    obtain ⟨o, ho, ha⟩ := List.mem_flatMap.1 ha
    exact GameObject.isDir_setStateReads (h.getObject (Option.mem_toList.1 ho)) a ha
  | setDir id dir =>
    intro a ha
    obtain ⟨o, _, ha⟩ := List.mem_flatMap.1 ha
    exact GameObject.isDir_setDirReads he a ha

/-- **A client that is sent only directions in range reads in bounds**, whatever it does itself in
between. -/
theorem Directed.isDir_runReads {es : List ClientEvent} (h : m.Directed)
    (hes : ∀ e ∈ es, e.Directed) : ∀ a ∈ m.runReads es, IsDir a.2 := by
  induction es generalizing m with
  | nil => simp [runReads]
  | cons e es ih =>
    have he := hes e List.mem_cons_self
    intro a ha
    rcases List.mem_append.1 ha with ha | ha
    · exact h.isDir_eventReads he a ha
    · exact ih (h.act he) (fun e' he' => hes e' (List.mem_cons_of_mem e he')) a ha

/-! ## Handlers that may be undefined -/

/-- `ClientPacketHandler::HandlePacket`, which is undefined if it reads a flipbook out of bounds. -/
def handlePacket? (m : SceneManager) (pkt : ServerPacket) : Option SceneManager :=
  if ∀ a ∈ m.reads pkt, IsDir a.2 then some (m.handlePacket pkt) else none

/-- A client that handles packets one after the other, as long as that is defined. -/
def replay? (m : SceneManager) (pkts : List ServerPacket) : Option SceneManager :=
  pkts.foldlM handlePacket? m

theorem handlePacket?_eq_none {a : Read} (ha : a ∈ m.reads pkt) (h : ¬ IsDir a.2) :
    m.handlePacket? pkt = none := if_neg fun hall => h (hall a ha)

/-- Where it is defined, the handler does what it does if no read is looked at. -/
theorem eq_of_handlePacket? {m' : SceneManager} (h : m.handlePacket? pkt = some m') :
    m' = m.handlePacket pkt := by
  rw [handlePacket?] at h
  split at h
  · exact (Option.some.inj h).symm
  · cases h

theorem replay?_append (m : SceneManager) (pkts pkts' : List ServerPacket) :
    m.replay? (pkts ++ pkts') = (m.replay? pkts).bind (·.replay? pkts') := List.foldlM_append

theorem eq_replay_of_replay? {pkts : List ServerPacket} {m' : SceneManager}
    (h : m.replay? pkts = some m') : m' = m.replay pkts := by
  induction pkts generalizing m with
  | nil => exact (Option.some.inj h).symm
  | cons pkt pkts ih =>
    obtain ⟨m₁, hpkt, hrest⟩ := Option.bind_eq_some_iff.1 h
    obtain rfl := eq_of_handlePacket? hpkt
    exact ih hrest

/-- **A client that is sent only directions in range can handle it all.** -/
theorem Directed.replay?_eq {pkts : List ServerPacket} (h : m.Directed)
    (hpkts : ∀ pkt ∈ pkts, DirectedPacket pkt) : m.replay? pkts = some (m.replay pkts) := by
  induction pkts generalizing m with
  | nil => rfl
  | cons pkt pkts ih =>
    have hpkt := hpkts pkt List.mem_cons_self
    have hhandled : m.handlePacket? pkt = some (m.handlePacket pkt) := if_pos (m.isDir_reads hpkt)
    have hrest := ih (h.handlePacket hpkt) fun pkt' hmem => hpkts pkt' (List.mem_cons_of_mem _ hmem)
    rw [replay?, List.foldlM_cons, hhandled]
    exact hrest

end SceneManager

end Zelda.Client
