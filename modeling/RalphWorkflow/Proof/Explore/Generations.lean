import RalphWorkflow.Lib.Run
import RalphWorkflow.Proof.Explore.Steps

/-! The generation of the live store over calls of `reindex` one after the other, and the contents that are committed under each. -/
namespace RalphWorkflow.Explore

open Lib Lib.Run List Option Reindex

variable {Content Fact : Type} {x : Indexer Content Fact} {disk : Disk Content}

structure Contents (Fact : Type) where
  file : String → Option FileRow
  rows : String → PathRows Fact

def Store.contents (store : Store Fact) : Contents Fact where
  file := store.files.get?
  rows := store.rows

/-- A system, with the generation and contents that each call found, and those committed. -/
structure Recorded (Content Fact : Type) where
  system : System Content Fact
  begun : List (Nat × Contents Fact) := []
  commits : List (Nat × Contents Fact)

namespace Recorded

def start (disk : Disk Content) (store : Store Fact) : Recorded Content Fact where
  system := { disk, store }
  commits := [(store.currentGeneration, store.contents)]

def generation (r : Recorded Content Fact) : Nat := r.system.store.currentGeneration

def contents (r : Recorded Content Fact) : Contents Fact := r.system.store.contents

def call? (r : Recorded Content Fact) (index : Nat) : Option (Reindex Fact) := r.system.reindexes[index]?

def record (r : Recorded Content Fact) (move : SystemMove Content) (next : System Content Fact) : Recorded Content Fact :=
  match move with
  | .begin _ _ => { r with system := next, begun := r.begun ++ [(r.generation, r.contents)] }
  | .reindex index .advance =>
    { r with
      system := next
      commits :=
        if (r.call? index).any succeeds then (next.store.currentGeneration, next.store.contents) :: r.commits
        else r.commits }
  | .write _ _ | .delete _ | .mark _ _ _ _ | .workflowHook | .reindex _ (.stop _) | .reindex _ .fail =>
    { r with system := next }

def step (x : Indexer Content Fact) (r : Recorded Content Fact) (move : SystemMove Content) : Option (Recorded Content Fact) :=
  (r.system.step x move).map (r.record move)

/-! ## What is claimed -/

def Distinct (r : Recorded Content Fact) : Prop :=
  ∀ generation first second, (generation, first) ∈ r.commits → (generation, second) ∈ r.commits → first = second

/-- A call that ends ok with other contents leaves a higher generation. -/
def Advances (r next : Recorded Content Fact) : Prop :=
  ∀ index found, next.call? index = some (.done .ok) → r.call? index ≠ some (.done .ok) → r.begun[index]? = some found →
    next.contents ≠ found.2 → found.1 < next.generation

structure InOrder (r next : Recorded Content Fact) : Prop where
  monotone : r.generation ≤ next.generation
  advances : r.Advances next
  distinct : next.Distinct

/-! ## When it holds -/

def OneAtATime (r : Recorded Content Fact) : SystemMove Content → Prop
  | .begin _ _ => ∀ call ∈ r.system.reindexes, call.job? = none
  | .write _ _ | .delete _ | .mark _ _ _ _ | .workflowHook | .reindex _ _ => True

/-- Nothing is committed yet, or only what the staged store has, and the live store too. -/
def Replaces (r : Recorded Content Fact) (staging : Store Fact) : Prop :=
  r.generation = 0 ∨
    r.generation = 1 ∧ staging.contents = r.contents ∧ ∀ contents, (1, contents) ∈ r.commits → contents = r.contents

/-- A full reindex is published only where the staged store may take the place of the live one. -/
def Fits (r : Recorded Content Fact) : SystemMove Content → Prop
  | .reindex index .advance =>
    ∀ staging job, r.call? index = some (.full staging job) → job.status? = some .ok → r.Replaces staging
  | .write _ _ | .delete _ | .mark _ _ _ _ | .workflowHook | .begin _ _ | .reindex _ (.stop _) | .reindex _ .fail => True

/-! ## The invariant -/

def StandsAt (r : Recorded Content Fact) (found : Nat × Contents Fact) : Reindex Fact → Prop
  | .changed job =>
    if job.committed then r.generation = found.1 + 1
    else r.generation = found.1 ∧ job.targetGeneration = found.1 + 1
  | .full staging job =>
    r.generation = found.1 ∧ r.contents = found.2 ∧
      if job.committed then staging.currentGeneration = 1 else job.targetGeneration = 1
  | .done _ => True

structure Sound (r : Recorded Content Fact) : Prop where
  distinct : r.Distinct
  bounded : ∀ entry ∈ r.commits, entry.1 ≤ r.generation
  recorded : r.begun.length = r.system.reindexes.length
  stands : ∀ index call found, r.call? index = some call → r.begun[index]? = some found → r.StandsAt found call
  alone : ∀ index other first second, r.call? index = some first → r.call? other = some second → first.job?.isSome →
    second.job?.isSome → index = other

theorem start_sound (disk : Disk Content) (store : Store Fact) : (start disk store).Sound where
  distinct generation first second hfirst hsecond := by
    cases mem_singleton.mp hfirst
    cases mem_singleton.mp hsecond
    rfl
  bounded entry hentry := by
    cases mem_singleton.mp hentry
    exact Nat.le_refl _
  recorded := rfl
  stands _ _ _ hcall := by cases hcall
  alone _ _ _ _ hcall := by cases hcall

/-! ## Steps -/

variable {r next : Recorded Content Fact} {move : SystemMove Content}

theorem standsAt_congr (hgeneration : next.generation = r.generation) (hcontents : next.contents = r.contents)
    (found : Nat × Contents Fact) (call : Reindex Fact) : next.StandsAt found call ↔ r.StandsAt found call := by
  cases call <;> simp only [StandsAt, hgeneration, hcontents]

theorem Sound.of_same (h : r.Sound) (hgeneration : next.generation = r.generation) (hcontents : next.contents = r.contents)
    (hcalls : next.system.reindexes = r.system.reindexes) (hbegun : next.begun = r.begun) (hcommits : next.commits = r.commits) :
    next.Sound where
  distinct := by
    unfold Distinct
    rw [hcommits]
    exact h.distinct
  bounded := by
    rw [hcommits, hgeneration]
    exact h.bounded
  recorded := by
    rw [hbegun, hcalls]
    exact h.recorded
  stands index call found hcall hfound := by
    rw [call?, hcalls] at hcall
    rw [hbegun] at hfound
    exact (standsAt_congr hgeneration hcontents found call).mpr (h.stands index call found hcall hfound)
  alone := by
    unfold call?
    rw [hcalls]
    exact h.alone

theorem InOrder.of_same (h : r.Sound) (hgeneration : next.generation = r.generation)
    (hcalls : ∀ index, next.call? index = some (.done .ok) → r.call? index = some (.done .ok))
    (hcommits : next.commits = r.commits) : r.InOrder next where
  monotone := Nat.le_of_eq hgeneration.symm
  advances index _ hnext hbefore := absurd (hcalls index hnext) hbefore
  distinct := by
    unfold Distinct
    rw [hcommits]
    exact h.distinct

variable {call : Reindex Fact} {index : Nat} {job : Job Fact}

theorem done_of_idle (h : call.job? = none) : ∃ status, call = .done status := by
  cases call with
  | changed | full => cases h
  | done status => exact ⟨status, rfl⟩

theorem Sound.begin (h : r.Sound) {mode : Mode} {pathScope : List String} (hidle : ∀ call ∈ r.system.reindexes, call.job? = none)
    (hcalls : next.system.reindexes = r.system.reindexes ++ [.start x r.system.disk r.system.store pathScope mode])
    (hstore : next.system.store = r.system.store) (hbegun : next.begun = r.begun ++ [(r.generation, r.contents)])
    (hcommits : next.commits = r.commits) : next.Sound := by
  have hgeneration : next.generation = r.generation := congrArg Store.currentGeneration hstore
  have hcontents : next.contents = r.contents := congrArg Store.contents hstore
  have hlast : ∀ index call, next.call? index = some call → call.job?.isSome → index = r.system.reindexes.length := by
    intro index call hcall hactive
    rw [call?, hcalls, List.getElem?_append] at hcall
    split at hcall
    · rw [hidle call (mem_of_getElem? hcall)] at hactive
      cases hactive
    · have hbound := (List.getElem?_eq_some_iff.mp hcall).1
      rw [length_singleton] at hbound
      omega
  refine ⟨?_, ?_, ?_, fun index call found hcall hfound => ?_, fun index other first second hfirst hsecond hactive hother => ?_⟩
  · unfold Distinct
    rw [hcommits]
    exact h.distinct
  · rw [hcommits, hgeneration]
    exact h.bounded
  · rw [hbegun, hcalls, length_append, length_append, h.recorded]
    rfl
  · cases hactive : call.job? with
    | none =>
      obtain ⟨status, rfl⟩ := done_of_idle hactive
      trivial
    | some job =>
      have hindex := hlast index call hcall (by rw [hactive]; rfl)
      rw [call?, hcalls, hindex, List.getElem?_concat_length] at hcall
      rw [hbegun, hindex, ← h.recorded, List.getElem?_concat_length] at hfound
      cases hcall
      cases hfound
      have htarget : (if r.generation = 0 then 1 else r.generation + 1) = r.generation + 1 := by
        split <;> omega
      cases mode with
      | changed => exact ⟨hgeneration, htarget⟩
      | full => exact ⟨hgeneration, hcontents, rfl⟩
  · exact (hlast index first hfirst hactive).trans (hlast other second hsecond hother).symm

theorem Sound.of_call (h : r.Sound) {call' : Reindex Fact} (hcall : r.call? index = some call)
    (hactive : call.job?.isSome) (hcalls : next.system.reindexes = r.system.reindexes.set index call')
    (hbegun : next.begun = r.begun) (hdistinct : next.Distinct) (hbounded : ∀ entry ∈ next.commits, entry.1 ≤ next.generation)
    (hstands : ∀ found, r.begun[index]? = some found → next.StandsAt found call') : next.Sound := by
  have hothers : ∀ other found, other ≠ index → r.call? other = some found → ∃ status, found = .done status := by
    intro other found hne hfound
    refine done_of_idle (not_isSome_iff_eq_none.mp fun hsome => hne ?_)
    exact h.alone other index found call hfound hcall hsome hactive
  have hlookup : ∀ other found, next.call? other = some found → other = index ∧ found = call' ∨ other ≠ index ∧ r.call? other = some found := by
    intro other found hfound
    rw [call?, hcalls] at hfound
    exact getElem?_set_cases hcall hfound
  refine ⟨hdistinct, hbounded, ?_, fun other found before hfound hbefore => ?_, fun first second _ _ hfirst hsecond hone htwo => ?_⟩
  · rw [hbegun, hcalls, length_set]
    exact h.recorded
  · rw [hbegun] at hbefore
    rcases hlookup other found hfound with ⟨rfl, rfl⟩ | ⟨hne, hold⟩
    · exact hstands before hbefore
    · obtain ⟨status, rfl⟩ := hothers other found hne hold
      trivial
  · have hactiveAt : ∀ other found, next.call? other = some found → found.job?.isSome → other = index := by
      intro other found hfound hsome
      rcases hlookup other found hfound with ⟨heq, -⟩ | ⟨hne, hold⟩
      · exact heq
      · obtain ⟨status, rfl⟩ := hothers other found hne hold
        cases hsome
    exact (hactiveAt first _ hfirst hone).trans (hactiveAt second _ hsecond htwo).symm

def after (r : Recorded Content Fact) (index : Nat) (move : JobMove) (live : Store Fact) (call : Reindex Fact) : Recorded Content Fact :=
  r.record (.reindex index move) { r.system with store := live, reindexes := r.system.reindexes.set index call }

theorem after_system (r : Recorded Content Fact) (index : Nat) (move : JobMove) (live : Store Fact) (call : Reindex Fact) :
    (r.after index move live call).system = { r.system with store := live, reindexes := r.system.reindexes.set index call } ∧
      (r.after index move live call).begun = r.begun := by
  cases move <;> exact ⟨rfl, rfl⟩

theorem after_generation (r : Recorded Content Fact) (index : Nat) (move : JobMove) (live : Store Fact) (call : Reindex Fact) :
    (r.after index move live call).generation = live.currentGeneration ∧
      (r.after index move live call).contents = live.contents := by
  cases move <;> exact ⟨rfl, rfl⟩

theorem commits_of_waiting (live : Store Fact) (call' : Reindex Fact) {move : JobMove}
    (hcall : r.call? index = some call) (h : move = .advance → call.succeeds = false) :
    (r.after index move live call').commits = r.commits := by
  cases move with
  | stop | fail => rfl
  | advance =>
    show (if (r.call? index).any succeeds then _ else r.commits) = r.commits
    rw [hcall, any_some, h rfl]
    rfl

theorem commits_of_succeeding (live : Store Fact) (call' : Reindex Fact) (hcall : r.call? index = some call) (h : call.succeeds = true) :
    (r.after index .advance live call').commits = (live.currentGeneration, live.contents) :: r.commits := by
  show (if (r.call? index).any succeeds then _ else r.commits) = _
  rw [hcall, any_some, if_pos h]

theorem distinct_cons {generation : Nat} {contents : Contents Fact} (h : r.Distinct) (hcommits : next.commits = (generation, contents) :: r.commits)
    (hnew : ∀ other, (generation, other) ∈ r.commits → other = contents) : next.Distinct := by
  intro g first second hfirst hsecond
  rw [hcommits, mem_cons] at hfirst hsecond
  rcases hfirst with heq | hfirst <;> rcases hsecond with heq' | hsecond
  · cases heq
    cases heq'
    rfl
  · cases heq
    exact (hnew second hsecond).symm
  · cases heq'
    exact hnew first hfirst
  · exact h g first second hfirst hsecond

theorem advances_of_call {move : JobMove} {live : Store Fact} {call' : Reindex Fact} (hcall : r.call? index = some call)
    (hended : call' = .done .ok → ∀ found, r.begun[index]? = some found → live.contents ≠ found.2 →
      found.1 < live.currentGeneration) : r.Advances (r.after index move live call') := by
  intro other found hdone hbefore hfound hdiffers
  rw [(r.after_generation index move live call').2] at hdiffers
  rw [(r.after_generation index move live call').1]
  rw [call?, (r.after_system index move live call').1] at hdone
  rcases getElem?_set_cases hcall hdone with ⟨rfl, heq⟩ | ⟨-, hold⟩
  · exact hended heq.symm found hfound hdiffers
  · exact absurd hold hbefore

theorem changed_step (h : r.Sound) {move : JobMove} {job' : Job Fact} {live : Store Fact}
    (hcall : r.call? index = some (.changed job)) (hjob : Job.Steps x r.system.disk r.system.store job move live job') :
    (r.after index move live (ofJob job')).Sound ∧ r.InOrder (r.after index move live (ofJob job')) := by
  obtain ⟨found, hfound⟩ : ∃ found, r.begun[index]? = some found := by
    have hbound := (List.getElem?_eq_some_iff.mp hcall).1
    rw [← h.recorded] at hbound
    exact ⟨_, List.getElem?_eq_getElem hbound⟩
  have hstands : if job.committed then r.generation = found.1 + 1
      else r.generation = found.1 ∧ job.targetGeneration = found.1 + 1 := h.stands index _ found hcall hfound
  obtain ⟨hsystem, hbegun⟩ := r.after_system index move live (ofJob job')
  obtain ⟨hgeneration, -⟩ := r.after_generation index move live (ofJob job')
  -- the step raises the generation to the next one, or leaves it and the commits as they are
  have hnext : r.generation ≤ live.currentGeneration ∧ (r.after index move live (ofJob job')).Distinct ∧
      (∀ entry ∈ (r.after index move live (ofJob job')).commits, entry.1 ≤ live.currentGeneration) ∧
      if job'.committed then live.currentGeneration = found.1 + 1
      else live.currentGeneration = found.1 ∧ job'.targetGeneration = found.1 + 1 := by
    obtain ⟨htarget, ⟨rfl, hphase, hset, hcommitted⟩ | ⟨hwaits, hsame, hcommitted⟩⟩ := hjob.generation
    · have huncommitted : job.committed = false := by simp only [Job.committed, hphase]
      rw [huncommitted, if_neg Bool.false_ne_true] at hstands
      have hcommits := commits_of_succeeding live (Reindex.ofJob job') hcall
        (show (Reindex.changed job).succeeds = true by simp only [Reindex.succeeds, hphase])
      have hraised : live.currentGeneration = found.1 + 1 := hset.trans hstands.2
      refine ⟨by omega, distinct_cons h.distinct hcommits fun other hother => ?_, fun entry hentry => ?_, ?_⟩
      · have hbound := h.bounded _ hother
        exact absurd hbound (by omega)
      · rw [hcommits] at hentry
        rcases mem_cons.mp hentry with rfl | hold
        · exact Nat.le_refl _
        · have hbound := h.bounded entry hold
          omega
      · rw [hcommitted, if_pos rfl]
        exact hraised
    · have hwaiting : move = .advance → (Reindex.changed job).succeeds = false :=
        fun hmove => waits_of_ne (hwaits hmove)
      have hcommits := commits_of_waiting live (ofJob job') hcall hwaiting
      refine ⟨Nat.le_of_eq hsame.symm, ?_, ?_, ?_⟩
      · unfold Distinct
        rw [hcommits]
        exact h.distinct
      · rw [hcommits, hsame]
        exact h.bounded
      · rw [hcommitted, htarget, hsame]
        exact hstands
  obtain ⟨hmonotone, hdistinct, hbounded, hafter⟩ := hnext
  refine ⟨h.of_call hcall rfl (congrArg System.reindexes hsystem) hbegun hdistinct (hgeneration ▸ hbounded) fun other hother => ?_,
    ⟨hgeneration ▸ hmonotone, advances_of_call hcall fun hended other hother _ => ?_, hdistinct⟩⟩
  · cases hfound.symm.trans hother
    cases hstatus : job'.status? with
    | none =>
      have hgoes : ofJob job' = .changed job' := by simp only [ofJob, hstatus]
      rw [hgoes] at hgeneration ⊢
      unfold StandsAt
      rw [hgeneration]
      exact hafter
    | some status =>
      have hends : ofJob job' = .done status := by simp only [ofJob, hstatus]
      rw [hends]
      trivial
  · cases hfound.symm.trans hother
    have hok : job'.status? = some .ok := by
      unfold ofJob at hended
      cases hstatus : job'.status? with
      | none => simp [hstatus] at hended
      | some status =>
        rw [hstatus] at hended
        cases hended
        rfl
    have hcommitted : job'.committed = true := Job.committed_of_ok hok
    rw [hcommitted, if_pos rfl] at hafter
    omega

theorem found_of_call (h : r.Sound) (hcall : r.call? index = some call) : ∃ found, r.begun[index]? = some found ∧ r.StandsAt found call := by
  have hbound := (List.getElem?_eq_some_iff.mp hcall).1
  rw [← h.recorded] at hbound
  have hfound : r.begun[index]? = some r.begun[index] := List.getElem?_eq_getElem hbound
  exact ⟨_, hfound, h.stands index call _ hcall hfound⟩

theorem live_kept (h : r.Sound) {move : JobMove} {call' : Reindex Fact} (hcall : r.call? index = some call)
    (hactive : call.job?.isSome) (hwaits : move = .advance → call.succeeds = false) (hended : call' ≠ .done .ok)
    (hstands : ∀ found, r.StandsAt found call → r.StandsAt found call') :
    (r.after index move r.system.store call').Sound ∧ r.InOrder (r.after index move r.system.store call') := by
  obtain ⟨hsystem, hbegun⟩ := r.after_system index move r.system.store call'
  obtain ⟨hgeneration, hcontents⟩ := r.after_generation index move r.system.store call'
  have hcommits := commits_of_waiting r.system.store call' hcall hwaits
  have hdistinct : (r.after index move r.system.store call').Distinct := by
    unfold Distinct
    rw [hcommits]
    exact h.distinct
  have hbounded : ∀ entry ∈ (r.after index move r.system.store call').commits, entry.1 ≤ (r.after index move r.system.store call').generation := by
    rw [hcommits, hgeneration]
    exact h.bounded
  refine ⟨h.of_call hcall hactive (congrArg System.reindexes hsystem) hbegun hdistinct hbounded fun found hfound => ?_,
    ⟨Nat.le_of_eq hgeneration.symm, advances_of_call hcall fun heq => absurd heq hended, hdistinct⟩⟩
  exact (standsAt_congr hgeneration hcontents found call').mpr (hstands found (h.stands index call found hcall hfound))

theorem staged_step (h : r.Sound) {move : JobMove} {staging staging' : Store Fact} {job' : Job Fact}
    (hcall : r.call? index = some (.full staging job)) (hok : job.status? ≠ some .ok)
    (hjob : Job.Steps x r.system.disk staging job move staging' job') :
    (r.after index move r.system.store (ofStaged staging' job')).Sound ∧
      r.InOrder (r.after index move r.system.store (ofStaged staging' job')) := by
  refine live_kept h hcall rfl (fun _ => decide_eq_false hok) (fun hended => ?_) fun found hstands => ?_
  · unfold ofStaged refusal at hended
    cases hstatus : job'.status? with
    | none => simp [hstatus] at hended
    | some status => cases status <;> simp [hstatus] at hended
  · have hafter : if job'.committed then staging'.currentGeneration = 1 else job'.targetGeneration = 1 := by
      have hbefore := hstands.2.2
      obtain ⟨htarget, ⟨-, hphase, hset, hcommitted⟩ | ⟨-, hsame, hcommitted⟩⟩ := hjob.generation
      · have huncommitted : job.committed = false := by simp only [Job.committed, hphase]
        rw [huncommitted, if_neg Bool.false_ne_true] at hbefore
        rw [hcommitted, if_pos rfl, hset, hbefore]
      · rw [hcommitted, hsame, htarget]
        exact hbefore
    unfold ofStaged
    split
    · exact ⟨hstands.1, hstands.2.1, hafter⟩
    · exact ⟨hstands.1, hstands.2.1, hafter⟩
    · trivial

theorem published_step (h : r.Sound) {staging : Store Fact}
    (hcall : r.call? index = some (.full staging job)) (hok : job.status? = some .ok) (hreplaces : r.Replaces staging) :
    (r.after index .advance staging (.done .ok)).Sound ∧ r.InOrder (r.after index .advance staging (.done .ok)) := by
  obtain ⟨found, hfound, hgen, hcontents, hstaging⟩ := found_of_call h hcall
  rw [Job.committed_of_ok hok, if_pos rfl] at hstaging
  obtain ⟨hsystem, hbegun⟩ := r.after_system index .advance staging (.done .ok)
  obtain ⟨hgeneration, -⟩ := r.after_generation index .advance staging (.done .ok)
  have hcommits := commits_of_succeeding staging (.done .ok) hcall (decide_eq_true hok)
  have hle : r.generation ≤ 1 := by
    rcases hreplaces with hzero | ⟨hone, -⟩ <;> omega
  have hdistinct : (r.after index .advance staging (.done .ok)).Distinct := by
    refine distinct_cons h.distinct hcommits fun other hother => ?_
    rw [hstaging] at hother
    have hbound := h.bounded _ hother
    rcases hreplaces with hzero | ⟨-, hsame, hcommitted⟩
    · exact absurd hbound (by omega)
    · rw [hsame]
      exact hcommitted other hother
  refine ⟨h.of_call hcall rfl (congrArg System.reindexes hsystem) hbegun hdistinct (fun entry hentry => ?_) fun _ _ => trivial,
    ⟨?_, advances_of_call hcall fun _ other hother hdiffers => ?_, hdistinct⟩⟩
  · rw [hgeneration, hstaging]
    rw [hcommits] at hentry
    rcases mem_cons.mp hentry with rfl | hold
    · exact Nat.le_of_eq hstaging
    · exact Nat.le_trans (h.bounded entry hold) hle
  · rw [hgeneration, hstaging]
    exact hle
  · cases hfound.symm.trans hother
    rcases hreplaces with hzero | ⟨-, hsame, -⟩
    · omega
    · exact absurd (hsame.trans hcontents) hdiffers

theorem replaces_of_inOrder (h : r.Sound) {staging : Store Fact} (hcall : r.call? index = some (.full staging job)) (hok : job.status? = some .ok)
    (horder : r.InOrder (r.after index .advance staging (.done .ok))) : r.Replaces staging := by
  obtain ⟨found, hfound, hgen, hcontents, hstaging⟩ := found_of_call h hcall
  rw [Job.committed_of_ok hok, if_pos rfl] at hstaging
  obtain ⟨hsystem, -⟩ := r.after_system index .advance staging (.done .ok)
  obtain ⟨hgeneration, hafter⟩ := r.after_generation index .advance staging (.done .ok)
  have hcommits := commits_of_succeeding staging (.done .ok) hcall (decide_eq_true hok)
  have hle := horder.monotone
  rw [hgeneration, hstaging] at hle
  by_cases hzero : r.generation = 0
  · exact .inl hzero
  · have hsame : staging.contents = r.contents := by
      by_contra hdiffers
      have hended : (r.after index .advance staging (.done .ok)).call? index = some (.done .ok) := by
        rw [call?, hsystem]
        exact List.getElem?_set_self (List.getElem?_eq_some_iff.mp hcall).1
      have hlt := horder.advances index found hended (by rw [hcall]; exact nofun) hfound (by rwa [hafter, ← hcontents])
      rw [hgeneration, hstaging] at hlt
      omega
    refine .inr ⟨by omega, hsame, fun contents hmem => ?_⟩
    refine (horder.distinct 1 contents staging.contents ?_ ?_).trans hsame
    · rw [hcommits]
      exact mem_cons_of_mem _ hmem
    · rw [hcommits, hstaging]
      exact mem_cons_self

theorem step_eq (h : r.step x move = some next) : ∃ s, r.system.step x move = some s ∧ next = r.record move s := by
  obtain ⟨s, hs, heq⟩ := map_eq_some_iff.mp h
  exact ⟨s, hs, heq.symm⟩

theorem sound_step (h : r.Sound) (hone : r.OneAtATime move) (hfits : r.Fits move) (hstep : r.step x move = some next) :
    next.Sound ∧ r.InOrder next := by
  obtain ⟨s, hs, rfl⟩ := step_eq hstep
  cases move with
  | write path file =>
    cases hs
    exact ⟨h.of_same rfl rfl rfl rfl rfl, .of_same h rfl (fun _ hcall => hcall) rfl⟩
  | delete path =>
    cases hs
    exact ⟨h.of_same rfl rfl rfl rfl rfl, .of_same h rfl (fun _ hcall => hcall) rfl⟩
  | workflowHook =>
    cases hs
    exact ⟨h.of_same rfl rfl rfl rfl rfl, .of_same h rfl (fun _ hcall => hcall) rfl⟩
  | mark handle path markedAt polledAt =>
    obtain ⟨-, hs⟩ := ite_none_right_eq_some.mp hs
    cases hs
    have hstore : (r.system.store.enqueueMark r.system.marks handle path).currentGeneration = r.generation ∧
        (r.system.store.enqueueMark r.system.marks handle path).contents = r.contents := by
      unfold Store.enqueueMark
      split <;> exact ⟨rfl, rfl⟩
    exact ⟨h.of_same hstore.1 hstore.2 rfl rfl rfl, .of_same h hstore.1 (fun _ hcall => hcall) rfl⟩
  | begin mode pathScope =>
    cases hs
    refine ⟨h.begin hone rfl rfl rfl rfl, .of_same h rfl (fun index hcall => ?_) rfl⟩
    rcases System.mem_begin hcall with hold | heq
    · exact hold
    · cases mode <;> cases heq
  | reindex index move =>
    obtain ⟨call, live', call', hcall, hsteps, rfl⟩ := System.step_reindex_eq hs
    cases hsteps with
    | changed hjob => exact changed_step h hcall hjob
    | staged hok hjob => exact staged_step h hcall hok hjob
    | published hok =>
      cases move with
      | advance => exact published_step h hcall hok (hfits _ _ hcall hok)
      | stop stop => exact live_kept h hcall rfl nofun (by cases stop <;> exact nofun) fun _ _ => trivial
      | fail => exact live_kept h hcall rfl nofun nofun fun _ _ => trivial

theorem fits_of_inOrder (h : r.Sound) (hstep : r.step x move = some next) (horder : r.InOrder next) : r.Fits move := by
  obtain ⟨s, hs, rfl⟩ := step_eq hstep
  cases move with
  | write | delete | mark | workflowHook | begin => trivial
  | reindex index move =>
    cases move with
    | stop | fail => trivial
    | advance =>
      intro staging job hfull hok
      obtain ⟨call, live', call', hcall, hsteps, rfl⟩ := System.step_reindex_eq hs
      cases hfull.symm.trans hcall
      cases hsteps with
      | staged hnot => exact absurd hok hnot
      | published => exact replaces_of_inOrder h hcall hok horder

/-! ## Runs -/

/-- Calls one after the other whose swaps all fit are in order; of the next steps, those that fit are. -/
theorem generations_in_order_iff {disk : Disk Content} {store : Store Fact} {moves : List (SystemMove Content)}
    (hrun : run (step x) (start disk store) moves = some r)
    (hone : Throughout (step x) (fun r move _ => r.OneAtATime move) (start disk store) moves)
    (hfits : Throughout (step x) (fun r move _ => r.Fits move) (start disk store) moves) :
    Throughout (step x) (fun r _ next => r.InOrder next) (start disk store) moves ∧
      ∀ move next, r.step x move = some next → r.OneAtATime move → (r.InOrder next ↔ r.Fits move) := by
  have hboth : Throughout (step x) (fun r move _ => r.OneAtATime move ∧ r.Fits move) (start disk store) moves := hone.and hfits
  have hkeeps : ∀ (r : Recorded Content Fact) move next, r.Sound → r.OneAtATime move ∧ r.Fits move →
      r.step x move = some next → next.Sound ∧ r.InOrder next := fun _ _ _ h hmove hstep => sound_step h hmove.1 hmove.2 hstep
  have hsound : r.Sound :=
    hboth.invariant (fun r move next h hmove hstep => (hkeeps r move next h hmove hstep).1) (start_sound disk store) hrun
  refine ⟨hboth.of_step hkeeps (start_sound disk store), fun move next hstep hmove => ⟨fits_of_inOrder hsound hstep, fun hfit => ?_⟩⟩
  exact (sound_step hsound hmove hfit hstep).2

instance (r : Recorded Content Fact) : (move : SystemMove Content) → Decidable (r.OneAtATime move)
  | .begin _ _ => inferInstanceAs (Decidable (∀ call ∈ _, job? call = none))
  | .write _ _ | .delete _ | .mark _ _ _ _ | .workflowHook | .reindex _ _ => .isTrue trivial

theorem fits_of_unset (h : r.generation = 0) (move : SystemMove Content) : r.Fits move := by
  cases move with
  | write | delete | mark | workflowHook | begin => trivial
  | reindex index move =>
    cases move with
    | stop | fail => trivial
    | advance => exact fun _ _ _ _ => .inl h

def firstBuilt : List (SystemMove String) :=
  [.write "a" { content := "1", mtimeNs := 1 }, .begin .full []] ++ List.replicate 12 (.reindex 0 .advance)

theorem first_built_in_order : Throughout (step plainIndexer) (fun r _ next => r.InOrder next) (start ∅ {}) firstBuilt := by
  have hrun : run (step plainIndexer) (start ∅ {}) firstBuilt =
      some ((run (step plainIndexer) (start ∅ {}) firstBuilt).get (by decide +kernel)) := (some_get _).symm
  have hunset : Throughout (step plainIndexer) (fun r _ _ => r.generation = 0) (start ∅ {}) firstBuilt := by decide +kernel
  have hfits : Throughout (step plainIndexer) (fun r move _ => r.Fits move) (start ∅ {}) firstBuilt :=
    @Throughout.of_step _ _ (step plainIndexer) (fun _ => True) _ (fun r move _ => r.Fits move)
      (fun _ move _ _ hgeneration _ => ⟨trivial, fits_of_unset hgeneration move⟩) _ _ trivial hunset
  exact (generations_in_order_iff hrun (by decide +kernel) hfits).1

/-- A full reindex takes the generation back to the first. -/
theorem generation_taken_back : ∃ r next, run (step plainIndexer) (start ∅ {})
        ([.write "a" { content := "1", mtimeNs := 1 }, .begin .changed []] ++ List.replicate 11 (.reindex 0 .advance) ++
          [.write "a" { content := "2", mtimeNs := 2 }, .begin .changed []] ++ List.replicate 11 (.reindex 1 .advance)) = some r ∧
      run (step plainIndexer) r ([.begin .full []] ++ List.replicate 12 (.reindex 2 .advance)) = some next ∧
      next.call? 2 = some (.done .ok) ∧ r.generation = 2 ∧ next.generation = 1 := by
  refine ⟨_, _, (some_get (by decide +kernel)).symm, (some_get (by decide +kernel)).symm, ?_, ?_, ?_⟩
  · rfl
  · decide +kernel
  · decide +kernel

end Recorded

end RalphWorkflow.Explore
