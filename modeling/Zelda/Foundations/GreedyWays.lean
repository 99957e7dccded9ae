import Zelda.Foundations.BestFirst

/-!
# The ways that greedy search finds

A greedy best-first search orders its queue by what is still to go and forgets how far it has come,
and a neighbour that was seen before is passed over whatever way it was seen by. Before it takes a
node it takes everything cheaper that what it has taken leads to (`Spread`), so a way can only be
found if none of its nodes is seen too early (`Greedy`).

Main results: `exists_run_iff`, the ways that the search returns, for one order or another among
nodes of equal cost, are the greedy ways to its goal; and `Result.low`, no node on the way returned
costs more than the dearest node on any other way to the same end.
-/

set_option linter.unusedSectionVars false

namespace Zelda

open Std (ExtTreeMap TransOrd LawfulEqOrd LawfulEqCmp)

/-! ## Greedy ways -/

section Greedy

variable {α K : Type*} [LT K] (steps : α → α → Prop) (cost : α → K) (src : α)

/-- What the nodes of `taken` lead to through nodes that cost less than `bound`. -/
def Spread (bound : K) (taken : Set α) : Set α :=
  {c | ∃ a ∈ taken, Relation.ReflTransGen (fun a b => steps a b ∧ cost b < bound) a c}

/-- No node of the list but the first has been seen when its predecessor is taken, if the nodes of
`taken` have been taken when the first one is seen, and before each node all that is cheaper. -/
def Greedy (taken : Set α) : List α → Prop
  | a :: b :: way => b ≠ src ∧ (∀ c ∈ Spread steps cost (cost a) taken, ¬ steps c b) ∧
      Greedy (insert a (Spread steps cost (cost a) taken)) (b :: way)
  | _ => True

variable {steps cost src} {bound : K} {taken : Set α} {a b c : α} {way : List α}

theorem subset_spread : taken ⊆ Spread steps cost bound taken := fun a ha => ⟨a, ha, .refl⟩

theorem mem_spread_of_steps (hc : c ∈ Spread steps cost bound taken) (hstep : steps c b)
    (hlt : cost b < bound) : b ∈ Spread steps cost bound taken :=
  hc.imp fun _ ⟨ha, hac⟩ => ⟨ha, hac.tail ⟨hstep, hlt⟩⟩

theorem greedy_cons_cons : Greedy steps cost src taken (a :: b :: way) ↔ b ≠ src ∧
    (∀ c ∈ Spread steps cost (cost a) taken, ¬ steps c b) ∧
      Greedy steps cost src (insert a (Spread steps cost (cost a) taken)) (b :: way) := Iff.rfl

/-- None of the nodes ahead has been seen. -/
theorem Greedy.unseen (h : Greedy steps cost src taken (a :: way)) (hb : b ∈ way) :
    b ≠ src ∧ ∀ c ∈ Spread steps cost (cost a) taken, ¬ steps c b := by
  induction way generalizing a taken with
  | nil => cases hb
  | cons c way ih =>
    obtain ⟨hne, hnot, htail⟩ := greedy_cons_cons.1 h
    rcases List.mem_cons.1 hb with rfl | hb
    · exact ⟨hne, hnot⟩
    · obtain ⟨hne, hnot⟩ := ih htail hb
      exact ⟨hne, fun e he => hnot e (subset_spread (.inr he))⟩

end Greedy

namespace BestFirst

variable {α K N : Type*} [Ord α] [TransOrd α] [LawfulEqOrd α] [DecidableEq α] [Inhabited α]
  [LinearOrder K] [Zero K] {B : BestFirst α K N} {Q : PriorityQueue N B.nodeCost} {a b c d : α}
  {st st' : Containers α K N} {taken : Set α} {pre post l path way : List α}

/-! ## What has been taken -/

/-- What was seen and is not pending any more. -/
def Taken (B : BestFirst α K N) (st : Containers α K N) : Set α :=
  {c | c ∈ st.best ∧ c ∉ (st.linked B).pending}

theorem Takes.unique (h : B.Takes Q st st' a) (h' : B.Takes Q st st' b) : a = b := by
  obtain ⟨-, node, pq, hpop, rfl⟩ := h
  obtain ⟨-, node', pq', hpop', rfl⟩ := h'
  rw [hpop] at hpop'
  cases hpop'
  rfl

/-- What the pass that takes `a` does. -/
theorem Takes.expands (hB : B.Lawful) (hst : B.Sound st) (h : B.Takes Q st st' a) :
    B.dest ∉ st.best ∧ (∀ c ∈ (st.linked B).pending, B.cost a ≤ B.cost c) ∧
      LinkedSearch.Expands B.Steps B.dest (st.linked B) (st'.linked B) a ∧
      a ∉ (st'.linked B).pending := by
  obtain ⟨pos, htakes, hdest, hleast, hexp, htaken, -⟩ := expands_of_searchBody hB hst h.1
  obtain rfl := htakes.unique h
  exact ⟨hdest, hleast, hexp, htaken⟩

theorem Takes.mem_taken (hB : B.Lawful) (hst : B.Sound st) (h : B.Takes Q st st' a) :
    a ∈ B.Taken st' := by
  obtain ⟨-, -, hexp, htaken⟩ := h.expands hB hst
  exact ⟨hexp.seen_mono (hst.explored.pending_sub a hexp.mem_pending), htaken⟩

/-- What was taken is not entered again. -/
theorem taken_mono (hB : B.Lawful) (hst : B.Sound st) (h : Loop.Reaches (B.searchBody Q) st st') :
    B.Taken st ⊆ B.Taken st' := by
  have hall := h.of_invariant (P := fun s => B.Sound s ∧ B.Taken st ⊆ B.Taken s) ?_
    ⟨hst, subset_rfl⟩
  · exact hall.2
  · rintro s s' ⟨hs, hsub⟩ hb
    obtain ⟨pos, -, hdest, -, hexp, -, hs', -⟩ := expands_of_searchBody hB hs hb
    refine ⟨hs', fun c hc => ?_⟩
    obtain ⟨hmem, hnot⟩ := hsub hc
    have hne : c ≠ B.dest := fun heq => hdest (heq ▸ hmem)
    refine ⟨hexp.seen_mono hmem, fun hp => ?_⟩
    rcases hexp.of_pending c hp with hp | hfresh
    · exact hnot hp
    · exact LinkedSearch.not_fresh_of_seen hmem hne hfresh

/-- Everything cheaper than `a` that what was taken leads to is taken before `a`. -/
theorem Takes.spread_subset (hB : B.Lawful) (hst : B.Sound st) (h : B.Takes Q st st' a)
    (htaken : taken ⊆ B.Taken st) : Spread B.Steps B.cost (B.cost a) taken ⊆ B.Taken st := by
  obtain ⟨-, hleast, -⟩ := h.expands hB hst
  rintro c ⟨e, he, hec⟩
  induction hec with
  | refl => exact htaken he
  | @tail b c _ hbc ih =>
    have hseen : c ∈ st.best :=
      ((hst.explored.closed b ih.1).resolve_left ih.2) c hbc.1
    exact ⟨hseen, fun hp => absurd (hleast c hp) (not_le.2 hbc.2)⟩

/-! ## What is seen keeps its trail -/

/-- What was seen stays seen and keeps its link. -/
theorem link_of_reaches (hB : B.Lawful) (hst : B.Sound st)
    (h : Loop.Reaches (B.searchBody Q) st st') :
    ∀ c ∈ st.best, c ∈ st'.best ∧ (st'.linked B).link c = (st.linked B).link c := by
  have hall := h.of_invariant (P := fun s => B.Sound s ∧
    ∀ c ∈ st.best, c ∈ s.best ∧ (s.linked B).link c = (st.linked B).link c) ?_
    ⟨hst, fun c hc => ⟨hc, rfl⟩⟩
  · exact hall.2
  · rintro s s' ⟨hs, hkept⟩ hb
    obtain ⟨pos, -, hdest, -, hexp, -, hs', -⟩ := expands_of_searchBody hB hs hb
    refine ⟨hs', fun c hc => ?_⟩
    obtain ⟨hmem, hlink⟩ := hkept c hc
    have hne : c ≠ B.dest := fun heq => hdest (heq ▸ hmem)
    exact ⟨hexp.seen_mono hmem, (hexp.link_eq hmem hne).trans hlink⟩

theorem trail_of_reaches (hB : B.Lawful) (hst : B.Sound st)
    (h : Loop.Reaches (B.searchBody Q) st st') (ha : a ∈ st.best)
    (hl : Trail (st.linked B).link a l) : Trail (st'.linked B).link a l :=
  hl.congr (P := fun c => c ∈ st.best)
    (fun c hc => ⟨hst.explored.link_mem c hc, (link_of_reaches hB hst h c hc).2⟩) ha

/-! ## What is returned is greedy -/

/-- What is seen was entered by the pass that took its parent. -/
theorem exists_takes (hB : B.Lawful) (h : Loop.Reaches (B.searchBody Q) (B.start Q) st)
    (hb : b ∈ st.best) (hne : (st.linked B).link b ≠ b) :
    ∃ st₁ st₂, Loop.Reaches (B.searchBody Q) (B.start Q) st₁ ∧
      B.Takes Q st₁ st₂ ((st.linked B).link b) ∧ b ∉ st₁.best ∧
      Loop.Reaches (B.searchBody Q) st₂ st := by
  induction h with
  | refl =>
    obtain rfl := mem_best_start.1 hb
    exact absurd link_start hne
  | @tail st st' hreach hbody ih =>
    have hst : B.Sound st := sound_start.of_reaches hB hreach
    obtain ⟨pos, htakes, hdest, -, hexp, -⟩ := expands_of_searchBody hB hst hbody
    by_cases hseen : b ∈ st.best
    · rw [hexp.link_eq hseen fun heq => hdest (heq ▸ hseen)] at hne ⊢
      obtain ⟨st₁, st₂, hst₁, htakes₁, hnew, hto⟩ := ih hseen hne
      exact ⟨st₁, st₂, hst₁, htakes₁, hnew, hto.tail hbody⟩
    · rw [hexp.link_of_fresh b (((hexp.mem_seen b).1 hb).resolve_left hseen)]
      exact ⟨st, st', hreach, htakes, hseen, .refl⟩

/-- A list that the links lead back along is greedy. -/
theorem Result.greedy_of_links (hB : B.Lawful) (h : B.Result Q st d l)
    (hchain : (a :: way).IsChain fun b c => (st.linked B).link c = b ∧ b ≠ c)
    (hmem : ∀ b ∈ a :: way, b ∈ st.best)
    (htaken : ∀ s, Loop.Reaches (B.searchBody Q) (B.start Q) s → a ∈ s.best →
      taken ⊆ B.Taken s) : Greedy B.Steps B.cost B.src taken (a :: way) := by
  induction way generalizing a taken with
  | nil => trivial
  | cons b way ih =>
    obtain ⟨⟨hlink, hne⟩, hchain⟩ := List.isChain_cons_cons.1 hchain
    have hmem' : ∀ c ∈ b :: way, c ∈ st.best := fun c hc => hmem c (List.mem_cons_of_mem _ hc)
    obtain ⟨res, hlast⟩ := h.last
    -- wherever `b` has been seen, `a` has been taken, and before `a` all that is cheaper
    have hbefore : ∀ s, Loop.Reaches (B.searchBody Q) (B.start Q) s → b ∈ s.best →
        ∃ s₁, B.Sound s₁ ∧ b ∉ s₁.best ∧ Spread B.Steps B.cost (B.cost a) taken ⊆ B.Taken s₁ ∧
          insert a (Spread B.Steps B.cost (B.cost a) taken) ⊆ B.Taken s := by
      intro s hs hb
      have hsound : B.Sound s := sound_start.of_reaches hB hs
      have hkept := (link_of_reaches hB hsound (hs.of_last h.reaches hlast) b hb).2
      obtain rfl : (s.linked B).link b = a := hkept.symm.trans hlink
      obtain ⟨s₁, s₂, hs₁, htakes, hnew, hto⟩ := exists_takes hB hs hb hne
      have hsound₁ : B.Sound s₁ := sound_start.of_reaches hB hs₁
      have hsound₂ : B.Sound s₂ := hsound₁.of_reaches hB (.single htakes.1)
      obtain ⟨-, -, hexp, -⟩ := htakes.expands hB hsound₁
      have hsub := htakes.spread_subset hB hsound₁
        (htaken s₁ hs₁ (hsound₁.explored.pending_sub _ hexp.mem_pending))
      refine ⟨s₁, hsound₁, hnew, hsub, Set.insert_subset ?_ ?_⟩
      · exact taken_mono hB hsound₂ hto (htakes.mem_taken hB hsound₁)
      · exact hsub.trans (taken_mono hB hsound₁ (.head htakes.1 hto))
    obtain ⟨s₁, hsound₁, hnew, hsub, -⟩ := hbefore st h.reaches (hmem' b List.mem_cons_self)
    refine greedy_cons_cons.2 ⟨?_, fun c hc hstep => ?_, ih hchain hmem' fun s hs hb => ?_⟩
    · rintro rfl
      exact hnew hsound₁.explored.start_mem
    · obtain ⟨hseen, hnot⟩ := hsub hc
      exact hnew ((hsound₁.explored.closed c hseen).resolve_left hnot b hstep)
    · obtain ⟨-, -, -, -, hall⟩ := hbefore s hs hb
      exact hall

theorem Result.greedy (hB : B.Lawful) (h : B.Result Q st d path.reverse) :
    Greedy B.Steps B.cost B.src ∅ path := by
  have hseen := (h.isWay hB).2.2
  cases path with
  | nil => trivial
  | cons a way =>
    refine h.greedy_of_links hB ?_ hseen fun _ _ _ => Set.empty_subset _
    exact List.isChain_reverse.1 h.trail.isChain

/-! ## What is greedy is returned -/

/-- The queue that of several nodes of least cost returns the one that comes first on `way`. -/
def preferring (B : BestFirst α K N) (way : List α) : PriorityQueue N B.nodeCost :=
  (PriorityQueue.selection fun n => toLex (B.nodeCost n, way.idxOf (B.nodePos n))).coarsen
    fun _ _ h => (Prod.Lex.toLex_le_toLex.1 h).elim le_of_lt fun h => h.1.le

theorem Takes.preferred (h : B.Takes (B.preferring way) st st' a) (hst : B.Sound st)
    (hb : b ∈ (st.linked B).pending) :
    B.cost a < B.cost b ∨ B.cost a = B.cost b ∧ way.idxOf a ≤ way.idxOf b := by
  obtain ⟨-, node, pq, hpop, rfl⟩ := h
  obtain ⟨n, hn, rfl⟩ := hb
  have hnode : node ∈ st.pq := ((B.preferring way).mem_of_pop hpop).2 (.inl rfl)
  rw [← hst.costed.cost_eq n hn, ← hst.costed.cost_eq node hnode]
  rcases ((B.preferring way).mem_of_pop hpop).1 hn with rfl | hn
  · exact .inr ⟨rfl, le_rfl⟩
  · have hle := PriorityQueue.cost_le (.selection fun n =>
      toLex (B.nodeCost n, way.idxOf (B.nodePos n))) hpop n hn
    exact Prod.Lex.toLex_le_toLex.1 hle

/-- The search has come along `way` as far as `a`, which it has seen but not taken. -/
structure Follows (B : BestFirst α K N) (way : List α) (st : Containers α K N) (taken : Set α)
    (pre : List α) (a : α) (post : List α) : Prop where
  way_eq : way = pre ++ a :: post
  isChain : (a :: post).IsChain B.Steps
  greedy : Greedy B.Steps B.cost B.src taken (a :: post)
  pending : a ∈ (st.linked B).pending
  pre_taken : ∀ b ∈ pre, b ∈ B.Taken st
  src_mem : B.src = a ∨ B.src ∈ pre
  seen : ∀ b ∈ st.best, b = B.src ∨ ∃ c ∈ Spread B.Steps B.cost (B.cost a) taken, B.Steps c b
  trail : Trail (st.linked B).link a (a :: pre.reverse)

/-- What is taken before `a` is cheaper, and something that was taken leads to it. -/
theorem Follows.mem_spread (h : B.Follows way st taken pre a post) (hst : B.Sound st)
    (htakes : B.Takes (B.preferring way) st st' c) (hc : c ∈ (st.linked B).pending)
    (hne : c ≠ a) : c ∈ Spread B.Steps B.cost (B.cost a) taken := by
  have hpre : ∀ b ∈ (st.linked B).pending, b ∉ pre := fun b hb hmem => (h.pre_taken b hmem).2 hb
  have hlt : B.cost c < B.cost a := by
    refine (htakes.preferred hst h.pending).resolve_right fun hle => ?_
    have hidx := hle.2
    rw [h.way_eq, List.idxOf_append_of_notMem (hpre c hc),
      List.idxOf_append_of_notMem (hpre a h.pending), List.idxOf_cons_self,
      List.idxOf_cons_ne _ hne.symm] at hidx
    omega
  rcases h.seen c (hst.explored.pending_sub c hc) with rfl | ⟨e, he, hstep⟩
  · exact (h.src_mem.elim hne (hpre _ hc)).elim
  · exact mem_spread_of_steps he hstep hlt

/-- **The search follows the way to its end**, whatever else it takes in between. -/
theorem Follows.step (hB : B.Lawful) (hst : B.Sound st) (h : B.Follows way st taken pre a post)
    (hb : B.searchBody (B.preferring way) st = .inl st') :
    (∃ taken pre a post, B.Follows way st' taken pre a post) ∨
      ∃ d ∈ st'.best, way.getLast? = some d ∧ Trail (st'.linked B).link d way.reverse := by
  obtain ⟨pos, htakes, hdest, -, hexp, htaken, -⟩ := expands_of_searchBody hB hst hb
  have hreach : Loop.Reaches (B.searchBody (B.preferring way)) st st' := .single hb
  have hmem : a ∈ st.best := hst.explored.pending_sub a h.pending
  have htrail := trail_of_reaches hB hst hreach hmem h.trail
  have hpre : ∀ b ∈ pre, b ∈ B.Taken st' := fun b hb => taken_mono hB hst hreach (h.pre_taken b hb)
  by_cases hpos : pos = a
  · subst hpos
    cases post with
    | nil =>
      refine .inr ⟨pos, hexp.seen_mono hmem, ?_, ?_⟩
      · rw [h.way_eq, List.getLast?_concat]
      · rwa [h.way_eq, List.reverse_concat]
    | cons b post =>
      obtain ⟨hne, hnot, hgreedy⟩ := greedy_cons_cons.1 h.greedy
      obtain ⟨hstep, hchain⟩ := List.isChain_cons_cons.1 h.isChain
      have hnew : b ∉ st.best := fun hb =>
        (h.seen b hb).elim hne fun ⟨c, hc, hcb⟩ => hnot c hc hcb
      have hfresh : (st.linked B).Fresh B.Steps B.dest pos b := ⟨hstep, .inl hnew⟩
      have hlink : (st'.linked B).link b = pos := hexp.link_of_fresh b hfresh
      refine .inl ⟨_, pre ++ [pos], b, post, ?_, hchain, hgreedy, hexp.pending_of_fresh b hfresh,
        fun c hc => ?_, .inr ?_, fun c hc => ?_, ?_⟩
      · rw [h.way_eq, List.append_assoc, List.singleton_append]
      · rcases List.mem_append.1 hc with hc | hc
        · exact hpre c hc
        · rw [List.mem_singleton.1 hc]
          exact htakes.mem_taken hB hst
      · rw [List.mem_append, List.mem_singleton]
        exact h.src_mem.symm
      · rcases (hexp.mem_seen c).1 hc with hc | hc
        · exact (h.seen c hc).imp id fun ⟨e, he, hec⟩ => ⟨e, subset_spread (.inr he), hec⟩
        · exact .inr ⟨pos, subset_spread (.inl rfl), hc.1⟩
      · rw [List.reverse_concat]
        refine .step (fun heq => hnew ?_) (hlink ▸ htrail)
        rwa [← heq, hlink]
  · have hspread := h.mem_spread hst htakes hexp.mem_pending hpos
    refine .inl ⟨taken, pre, a, post, h.way_eq, h.isChain, h.greedy,
      hexp.pending_of_ne a h.pending (Ne.symm hpos), hpre, h.src_mem, fun c hc => ?_, htrail⟩
    rcases (hexp.mem_seen c).1 hc with hc | hc
    · exact h.seen c hc
    · exact .inr ⟨pos, hspread, hc.1⟩

/-- The search does not leave before the end of the way has been seen. -/
theorem Follows.trail_of_last (hB : B.Lawful) (hst : B.Sound st)
    (h : B.Follows way st taken pre a post) (hgoal : B.IsGoal d)
    (hway : IsWay B.Steps B.src d way) (hlast : ∃ res, B.searchBody Q st = .inr res) :
    Trail (st.linked B).link d way.reverse := by
  obtain ⟨⟨found, st'⟩, hlast⟩ := hlast
  obtain ⟨-, -, htrue, hfalse⟩ := searchBody_eq_inr hB hst hlast
  have hend := hway.getLast?_eq
  rw [h.way_eq] at hend ⊢
  cases post with
  | nil =>
    rw [List.getLast?_concat] at hend
    obtain rfl := Option.some.inj hend
    rw [List.reverse_concat]
    exact h.trail
  | cons b post =>
    have hpq : st.pq ≠ [] := by
      obtain ⟨node, hnode, -⟩ := h.pending
      exact List.ne_nil_of_mem hnode
    have hdest : B.dest ∈ st.best := htrue (eq_true_of_ne_false fun hf => hpq (hfalse hf))
    rw [← hgoal.eq_dest (hst.explored.reachable _ hdest)] at hdest
    -- the goal is ahead, so it has not been seen
    have hahead : d ∈ b :: post := by
      rw [List.getLast?_append_cons, List.getLast?_cons_cons] at hend
      exact List.mem_of_getLast? hend
    obtain ⟨hne, hnot⟩ := h.greedy.unseen hahead
    exact ((h.seen d hdest).elim hne fun ⟨c, hc, hcd⟩ => hnot c hc hcd).elim

theorem follows_start (hway : (B.src :: post).IsChain B.Steps)
    (hgreedy : Greedy B.Steps B.cost B.src ∅ (B.src :: post)) :
    B.Follows (B.src :: post) (B.start Q) ∅ [] B.src post where
  way_eq := rfl
  isChain := hway
  greedy := hgreedy
  pending := ⟨_, Q.mem_push.2 (.inl rfl), B.nodePos_node _ _⟩
  pre_taken _ hb := absurd hb List.not_mem_nil
  src_mem := .inl rfl
  seen _ hb := .inl (mem_best_start.1 hb)
  trail := .fixed link_start

/-- Where the search that prefers a greedy way to its goal ends, the links lead back along it. -/
theorem Result.trail_way (hB : B.Lawful) (hgoal : B.IsGoal d) (hway : IsWay B.Steps B.src d way)
    (hgreedy : Greedy B.Steps B.cost B.src ∅ way) (h : B.Result (B.preferring way) st d l) :
    Trail (st.linked B).link d way.reverse := by
  have hall := h.reaches.of_invariant (P := fun s => B.Sound s ∧
    ((∃ taken pre a post, B.Follows way s taken pre a post) ∨
      ∃ e ∈ s.best, way.getLast? = some e ∧ Trail (s.linked B).link e way.reverse)) ?_ ?_
  · obtain ⟨hst, ⟨taken, pre, a, post, hfollows⟩ | ⟨e, -, hlast, htrail⟩⟩ := hall
    · exact hfollows.trail_of_last hB hst hgoal hway h.last
    · rw [hway.getLast?_eq] at hlast
      obtain rfl := Option.some.inj hlast
      exact htrail
  · rintro s s' ⟨hs, hor⟩ hb
    have hreach : Loop.Reaches (B.searchBody (B.preferring way)) s s' := .single hb
    refine ⟨hs.of_reaches hB hreach, ?_⟩
    rcases hor with ⟨taken, pre, a, post, hfollows⟩ | ⟨e, hmem, hlast, htrail⟩
    · exact hfollows.step hB hs hb
    · exact .inr ⟨e, (link_of_reaches hB hs hreach e hmem).1, hlast,
        trail_of_reaches hB hs hreach hmem htrail⟩
  · refine ⟨sound_start, .inl ?_⟩
    cases way with
    | nil => cases hway.head?_eq
    | cons a post =>
      obtain rfl := Option.some.inj hway.head?_eq
      exact ⟨∅, [], _, post, follows_start hway.isChain hgreedy⟩

/-- **The ways that the search returns**, for one order or another among nodes of equal cost, are
the greedy ways to its goal. -/
theorem exists_run_iff (hB : B.Lawful) :
    (∃ (Q : PriorityQueue N B.nodeCost) (fuel : ℕ), B.run Q fuel = some way) ↔
      ∃ d, B.IsGoal d ∧ IsWay B.Steps B.src d way ∧ Greedy B.Steps B.cost B.src ∅ way := by
  constructor
  · rintro ⟨Q, fuel, h⟩
    obtain ⟨st, d, hres⟩ := result_of_run hB h
    exact ⟨d, hres.isGoal, (hres.isWay hB).1, hres.greedy hB⟩
  · rintro ⟨d, hgoal, hway, hgreedy⟩
    obtain ⟨fuel, l, hrun, st, d', hres⟩ := exists_result hB (B.preferring way)
    obtain rfl := hgoal.unique hres.isGoal
    have htrail := hres.trail_way hB hgoal hway hgreedy
    rw [hres.trail.unique htrail, List.reverse_reverse] at hrun
    exact ⟨_, fuel, hrun⟩

/-! ## What the way returned costs -/

/-- **No node on the way returned costs more than it has to**: if some way to its end pays no more
than `bound` for any of its nodes, so does the way returned. -/
theorem Result.low (hB : B.Lawful) (h : B.Result Q st d l) (hne : B.src ≠ B.dest) {bound : K}
    (hway : LinkedSearch.Within B.Steps B.cost bound B.src d) :
    ∀ c ∈ l, c = B.src ∨ B.cost c ≤ bound := by
  have hcost : d = B.src ∨ B.cost d ≤ bound :=
    hway.cases_tail.imp id fun ⟨_, _, hlast⟩ => hlast.2
  have hall := h.reaches.of_invariant (P := fun s => B.Sound s ∧
    (d ∉ s.best → (s.linked B).Low B.cost bound B.src) ∧
    (d ∈ s.best → ∃ l, Trail (s.linked B).link d l ∧ ∀ c ∈ l, c = B.src ∨ B.cost c ≤ bound)) ?_ ?_
  · obtain ⟨l', htrail, hlow⟩ := hall.2.2 h.mem_best
    rwa [h.trail.unique htrail]
  · rintro s s' ⟨hs, hbefore, hafter⟩ hb
    have hreach : Loop.Reaches (B.searchBody Q) s s' := .single hb
    obtain ⟨pos, -, -, hleast, hexp, htaken, hs', -⟩ := expands_of_searchBody hB hs hb
    by_cases hd : d ∈ s.best
    · obtain ⟨l', htrail, hlow⟩ := hafter hd
      refine ⟨hs', fun hnot => absurd (hexp.seen_mono hd) hnot, fun _ => ⟨l', ?_, hlow⟩⟩
      exact trail_of_reaches hB hs hreach hd htrail
    · have hlow : (s'.linked B).Low B.cost bound B.src :=
        (hbefore hd).expands hs.explored hne hway hd hexp hleast htaken
      refine ⟨hs', fun _ => hlow, fun hd' => ?_⟩
      obtain ⟨l', htrail⟩ := (hs'.treelike.settles d hd').exists_trail
      exact ⟨l', htrail, hlow.trail hs'.explored hd' hcost htrail⟩
  · refine ⟨sound_start, fun _ => ⟨fun _ c hc => ?_, fun c hc => .inl ?_⟩, fun hd => ?_⟩
    · exact mem_best_start.1 (sound_start.explored.pending_sub c hc)
    · rw [mem_best_start.1 hc]
      exact link_start
    · obtain rfl := mem_best_start.1 hd
      exact ⟨_, .fixed link_start, fun c hc => .inl (List.mem_singleton.1 hc)⟩

end BestFirst

end Zelda
