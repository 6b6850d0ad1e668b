import RalphWorkflow.Mcp.CompletionReceipts

/-! The receipt that counts is the row, and without a row the file. The verdict is what the last call that returned has made it, unless a write went
to the file under a row that its secret does not pass, or a removal did not get at the row. -/
namespace RalphWorkflow.CompletionReceipts
open Lib Lib.Text Lib.FileTree Workspace Pipeline List Call

/-! ## Paths -/

section Paths

variable {runId artifactType other name : String}

def PlainRun (runId : String) : Prop := ProperName runId ∧ runId ≠ ".."

def PlainType (artifactType : String) : Prop := ProperName (artifactType ++ ".json")

instance (runId : String) : Decidable (PlainRun runId) := inferInstanceAs (Decidable (ProperName runId ∧ runId ≠ ".."))

instance (artifactType : String) : Decidable (PlainType artifactType) :=
  inferInstanceAs (Decidable (ProperName (artifactType ++ ".json")))

theorem splitOn_proper (hname : ProperName name) : name.toList.splitOn '/' = [name.toList] :=
  splitOn_eq_singleton hname.2.2.1

theorem isAbsolute_proper (hname : ProperName name) : isAbsolute name = false := by
  unfold isAbsolute
  cases hchars : name.toList with
  | nil => rfl
  | cons c rest =>
    have hc : '/' ≠ c := fun heq => hname.2.2.1 (by rw [hchars, heq]; exact mem_cons_self)
    simp [List.isPrefixOf, hc]

theorem receiptDir_plain (hrun : PlainRun runId) : receiptDir runId = [".agent", "receipts", runId] := by
  have htext : (".agent/receipts/" ++ runId).toList = ".agent".toList ++ '/' :: ("receipts".toList ++ '/' :: runId.toList) := by
    rw [String.toList_append]
    rfl
  have hrelative : isAbsolute (".agent/receipts/" ++ runId) = false := by
    unfold isAbsolute
    rw [htext]
    rfl
  unfold receiptDir joined
  rw [hrelative]
  unfold pathNames
  rw [htext, splitOn_append_cons_self, splitOn_append_cons_self, splitOn_proper hrun.1]
  have hkept : [runId].filter (fun part => part != "" && part != ".") = [runId] := by simp [hrun.1.1, hrun.1.2.1]
  simp only [map_append, filter_append, map_cons, map_nil, String.ofList_toList, hkept]
  rfl

theorem receiptPath_plain (hrun : PlainRun runId) (htype : PlainType artifactType) :
    receiptPath runId artifactType = [".agent", "receipts", runId, artifactType ++ ".json"] := by
  unfold receiptPath joined
  rw [isAbsolute_proper htype, receiptDir_plain hrun]
  unfold pathNames
  rw [splitOn_proper htype]
  have hkept : (artifactType ++ ".json" != "" && artifactType ++ ".json" != ".") = true := by simp [htype.1, htype.2.1]
  simp [hkept]

theorem receiptPath_inj {otherRun otherType : String} (hrun : PlainRun runId) (htype : PlainType artifactType)
    (hotherRun : PlainRun otherRun) (hotherType : PlainType otherType)
    (hpath : receiptPath runId artifactType = receiptPath otherRun otherType) : runId = otherRun ∧ artifactType = otherType := by
  rw [receiptPath_plain hrun htype, receiptPath_plain hotherRun hotherType] at hpath
  simp only [List.cons.injEq, true_and, and_true] at hpath
  exact ⟨hpath.1, (String.append_left_inj _).mp hpath.2⟩

theorem mem_listing_iff {stores : Stores} (hrun : PlainRun runId) (htype : PlainType artifactType) (hother : PlainRun other) :
    receiptPath runId artifactType ∈ stores.listing other ↔
      (stores.files.get? (receiptPath runId artifactType)).isSome ∧ runId = other := by
  unfold Stores.listing
  rw [mem_filter, Dict.mem_keys_iff, Dict.contains, receiptDir_plain hother, receiptPath_plain hrun htype]
  simp

end Paths

/-! ## What is removed -/

section Removal

variable {runId artifactType other : String} {stores : Stores} {unlinks : Place → Bool} {paths : List Place}
  {files : Dict Place Document}

theorem get?_foldl_erase {κ ν : Type} [DecidableEq κ] (keys : List κ) (d : Dict κ ν) (k : κ) :
    (keys.foldl (fun d key => d.erase key) d).get? k = if k ∈ keys then none else d.get? k := by
  induction keys generalizing d with
  | nil => simp
  | cons key keys ih =>
    rw [foldl_cons, ih, Dict.get?_erase]
    by_cases hkeys : k ∈ keys
    · simp [hkeys]
    · by_cases hkey : k = key
      · simp [hkey]
      · simp [hkeys, hkey]

theorem get?_clearRows (rows : Dict (String × String) (Option String)) (runId other artifactType : String) :
    (clearRows rows runId).get? (other, artifactType) = if other = runId then none else rows.get? (other, artifactType) := by
  unfold clearRows
  simp only [get?_foldl_erase, mem_filter, Dict.mem_keys_iff, Dict.contains]
  by_cases hother : other = runId
  · cases hrow : rows.get? (other, artifactType) <;> simp [hother]
  · simp [hother]

theorem get?_unlinkAll (unlinks : Place → Bool) (paths : List Place) (files : Dict Place Document) (path : Place) :
    (unlinkAll unlinks paths files).1.get? path = if path ∈ paths.takeWhile unlinks then none else files.get? path := by
  induction paths generalizing files with
  | nil => simp [unlinkAll]
  | cons first rest ih =>
    rw [unlinkAll]
    by_cases hfirst : unlinks first = true
    · rw [if_pos hfirst, ih, Dict.get?_erase, takeWhile_cons_of_pos hfirst]
      by_cases hrest : path ∈ rest.takeWhile unlinks
      · simp [hrest]
      · by_cases hsame : path = first
        · simp [hsame]
        · simp [hrest, hsame]
    · rw [if_neg hfirst, takeWhile_cons_of_neg hfirst]
      simp

theorem unlinkAll_returns : (unlinkAll unlinks paths files).2 = true ↔ paths.takeWhile unlinks = paths := by
  induction paths generalizing files with
  | nil => simp [unlinkAll]
  | cons first rest ih =>
    rw [unlinkAll]
    by_cases hfirst : unlinks first = true
    · rw [if_pos hfirst, ih, takeWhile_cons_of_pos hfirst]
      simp
    · rw [if_neg hfirst, takeWhile_cons_of_neg hfirst]
      simp

end Removal

/-! ## Single calls -/

section Calls

variable {receiptHmac : String → String → String → String} {stores : Stores} {runId artifactType : String} {call : Call}
  {secret : Option String}

def view (stores : Stores) (runId artifactType : String) : Option (Option String) × Option Document :=
  (stores.rows.get? (runId, artifactType), stores.files.get? (receiptPath runId artifactType))

def rowPasses (receiptHmac : String → String → String → String) (runId artifactType : String) : Option String → Option String → Bool
  | _, none => true
  | none, some _ => false
  | some stored, some secret => stored == receiptHmac secret runId artifactType

def filePasses (receiptHmac : String → String → String → String) (runId artifactType : String) : Document → Option String → Bool
  | _, none => true
  | .payload _ _ (some stored), some secret => stored == receiptHmac secret runId artifactType
  | _, some _ => false

theorem present_eq (receiptHmac : String → String → String → String) (stores : Stores) (runId artifactType : String) (secret : Option String) :
    artifactReceiptPresent receiptHmac stores runId artifactType secret =
      match view stores runId artifactType with
      | (some row, _) => rowPasses receiptHmac runId artifactType row secret
      | (none, some document) => filePasses receiptHmac runId artifactType document secret
      | (none, none) => false := by
  unfold artifactReceiptPresent view
  rw [if_pos (show (true && true) = true from rfl)]
  cases stores.rows.get? (runId, artifactType) with
  | some row => cases row <;> cases secret <;> rfl
  | none =>
    unfold legacyFileReceiptPresent
    cases stores.files.get? (receiptPath runId artifactType) with
    | none => rfl
    | some document =>
      cases secret with
      | none => rfl
      | some secret =>
        cases document with
        | spoiled => rfl
        | payload run type hmac => cases hmac <;> rfl

theorem present_congr {other : Stores} (h : view stores runId artifactType = view other runId artifactType) (secret : Option String) :
    artifactReceiptPresent receiptHmac stores runId artifactType secret =
      artifactReceiptPresent receiptHmac other runId artifactType secret := by
  rw [present_eq, present_eq, h]

def Call.Plain : Call → Prop
  | .write runId artifactType _ _ => PlainRun runId ∧ PlainType artifactType
  | .delete runId artifactType _ => PlainRun runId ∧ PlainType artifactType
  | .clear runId _ => PlainRun runId

/-- No write under a row its secret does not pass, no broken file that counts; a removal takes the row when it returns. -/
def Call.Meets (receiptHmac : String → String → String → String) (stores : Stores) (call : Call) : Prop :=
  match call with
  | .write runId artifactType secret faults =>
    (faults.opens && faults.upserts) = false →
      ((call.apply receiptHmac stores).2 = true → ∀ row, stores.rows.get? (runId, artifactType) = some row →
        rowPasses receiptHmac runId artifactType row secret = true) ∧
      ((call.apply receiptHmac stores).2 = false → faults.spoils = true →
        (stores.rows.get? (runId, artifactType)).isSome ∨ stores.files.get? (receiptPath runId artifactType) = none)
  | .delete runId artifactType faults =>
    (stores.rows.get? (runId, artifactType)).isSome →
      ((call.apply receiptHmac stores).2 = true ↔ (faults.opens && faults.deletes) = true)
  | .clear runId faults =>
    ∀ artifactType, PlainType artifactType →
      ((stores.rows.get? (runId, artifactType)).isSome →
        ((call.apply receiptHmac stores).2 = true ↔ (faults.opens && faults.clears) = true)) ∧
      ((stores.rows.get? (runId, artifactType)) = none → (call.apply receiptHmac stores).2 = false → faults.lists = true →
        receiptPath runId artifactType ∉ (stores.listing runId).takeWhile faults.unlinks)

theorem view_write_of_ne {otherRun otherType : String} {faults : WriteFaults} (hplain : PlainRun otherRun ∧ PlainType otherType)
    (hrun : PlainRun runId) (htype : PlainType artifactType) (hne : ¬ (otherRun = runId ∧ otherType = artifactType)) :
    view (writeArtifactReceipt receiptHmac stores otherRun otherType secret faults).1 runId artifactType =
      view stores runId artifactType := by
  have hkey : (runId, artifactType) ≠ (otherRun, otherType) := fun heq => hne (by simp_all)
  have hpath : receiptPath runId artifactType ≠ receiptPath otherRun otherType := by
    intro heq
    obtain ⟨rfl, rfl⟩ := receiptPath_inj hrun htype hplain.1 hplain.2 heq
    exact hne ⟨rfl, rfl⟩
  unfold writeArtifactReceipt writeLegacyReceiptFallback view
  dsimp only
  split_ifs <;> simp [hkey, hpath]

theorem view_delete_of_ne {otherRun otherType : String} {faults : DeleteFaults} (hplain : PlainRun otherRun ∧ PlainType otherType)
    (hrun : PlainRun runId) (htype : PlainType artifactType) (hne : ¬ (otherRun = runId ∧ otherType = artifactType)) :
    view (deleteArtifactReceipt stores otherRun otherType faults).1 runId artifactType = view stores runId artifactType := by
  have hkey : (runId, artifactType) ≠ (otherRun, otherType) := fun heq => hne (by simp_all)
  have hpath : receiptPath runId artifactType ≠ receiptPath otherRun otherType := by
    intro heq
    obtain ⟨rfl, rfl⟩ := receiptPath_inj hrun htype hplain.1 hplain.2 heq
    exact hne ⟨rfl, rfl⟩
  unfold deleteArtifactReceipt view
  dsimp only
  split_ifs <;> simp [hkey, hpath]

theorem view_clear (stores : Stores) (otherRun : String) (faults : ClearFaults) (runId artifactType : String) :
    view (clearRunReceipts stores otherRun faults).1 runId artifactType =
      (if (faults.opens && faults.clears) = true ∧ runId = otherRun then none else stores.rows.get? (runId, artifactType),
       if faults.lists = true ∧ receiptPath runId artifactType ∈ (stores.listing otherRun).takeWhile faults.unlinks then none
       else stores.files.get? (receiptPath runId artifactType)) := by
  have hrows : (if (faults.opens && faults.clears) = true then clearRows stores.rows otherRun else stores.rows).get? (runId, artifactType) =
      if (faults.opens && faults.clears) = true ∧ runId = otherRun then none else stores.rows.get? (runId, artifactType) := by
    by_cases hdone : (faults.opens && faults.clears) = true
    · rw [if_pos hdone, get?_clearRows]
      simp only [hdone, true_and]
    · rw [if_neg hdone, if_neg fun h => hdone h.1]
  unfold clearRunReceipts view
  dsimp only
  by_cases hlists : faults.lists = true
  · rw [if_pos hlists, hrows, get?_unlinkAll]
    simp only [hlists, true_and]
  · have hnone : ¬ (faults.lists = true ∧
        receiptPath runId artifactType ∈ (stores.listing otherRun).takeWhile faults.unlinks) := fun h => hlists h.1
    rw [if_neg hlists, if_neg hnone, hrows]

theorem view_of_not_concerns (hplain : call.Plain) (hrun : PlainRun runId) (htype : PlainType artifactType)
    (hother : ¬ call.Concerns runId artifactType) :
    view (call.apply receiptHmac stores).1 runId artifactType = view stores runId artifactType := by
  cases call with
  | write otherRun otherType secret faults => exact view_write_of_ne hplain hrun htype hother
  | delete otherRun otherType faults => exact view_delete_of_ne hplain hrun htype hother
  | clear otherRun faults =>
    have hne : runId ≠ otherRun := fun heq => hother heq.symm
    have hlisted : receiptPath runId artifactType ∉ (stores.listing otherRun).takeWhile faults.unlinks :=
      fun hmem => hne ((mem_listing_iff hrun htype hplain).mp (takeWhile_subset _ hmem)).2
    rw [apply, view_clear, if_neg fun h => hne h.2, if_neg fun h => hlisted h.2]
    rfl

theorem view_of_absent (hplain : call.Plain) (hrun : PlainRun runId) (htype : PlainType artifactType)
    (hwrite : ∀ secret faults, call ≠ .write runId artifactType secret faults) (habsent : view stores runId artifactType = (none, none)) :
    view (call.apply receiptHmac stores).1 runId artifactType = (none, none) := by
  by_cases hconcerns : call.Concerns runId artifactType
  · obtain ⟨hrow, hfile⟩ := Prod.mk.inj habsent
    cases call with
    | write otherRun otherType secret faults =>
      obtain ⟨rfl, rfl⟩ := hconcerns
      exact absurd rfl (hwrite secret faults)
    | delete otherRun otherType faults =>
      obtain ⟨rfl, rfl⟩ := hconcerns
      unfold apply deleteArtifactReceipt view
      dsimp only
      split_ifs <;> simp [hrow, hfile]
    | clear otherRun faults =>
      rw [apply, view_clear, hrow, hfile]
      simp
  · rw [view_of_not_concerns hplain hrun htype hconcerns, habsent]

theorem present_of_row {other : Stores} {row : Option String} (hrow : stores.rows.get? (runId, artifactType) = some row)
    (hother : other.rows.get? (runId, artifactType) = some row) (secret : Option String) :
    artifactReceiptPresent receiptHmac stores runId artifactType secret =
      artifactReceiptPresent receiptHmac other runId artifactType secret := by
  rw [present_eq, present_eq, view, view, hrow, hother]

theorem present_of_raises (hmeets : call.Meets receiptHmac stores) (htype : PlainType artifactType)
    (hconcerns : call.Concerns runId artifactType) (hraises : (call.apply receiptHmac stores).2 = false)
    (hpresent : artifactReceiptPresent receiptHmac stores runId artifactType secret = true) :
    artifactReceiptPresent receiptHmac (call.apply receiptHmac stores).1 runId artifactType secret = true := by
  cases hrow : stores.rows.get? (runId, artifactType) with
  | some row =>
    have hkept : (call.apply receiptHmac stores).1.rows.get? (runId, artifactType) = some row := by
      cases call with
      | write otherRun otherType other faults =>
        obtain ⟨rfl, rfl⟩ := hconcerns
        revert hraises
        unfold apply writeArtifactReceipt writeLegacyReceiptFallback
        dsimp only
        split_ifs <;> simp [hrow]
      | delete otherRun otherType faults =>
        obtain ⟨rfl, rfl⟩ := hconcerns
        have hdone := (hmeets (by rw [hrow]; rfl)).symm.trans (by rw [hraises]; simp : _ ↔ False)
        revert hdone
        unfold apply deleteArtifactReceipt
        dsimp only
        cases faults.opens <;> cases faults.deletes <;> cases faults.unlinks <;> simp [hrow]
      | clear otherRun faults =>
        cases hconcerns
        have hdone := ((hmeets artifactType htype).1 (by rw [hrow]; rfl)).symm.trans (by rw [hraises]; simp : _ ↔ False)
        have hview := congrArg Prod.fst (view_clear stores runId faults runId artifactType)
        exact hview.trans (by rw [if_neg fun h => hdone.mp h.1, hrow])
    rw [← present_of_row hrow hkept, hpresent]
  | none =>
    have hfile : stores.files.get? (receiptPath runId artifactType) ≠ none := by
      intro hnone
      rw [present_eq, view, hrow, hnone] at hpresent
      simp at hpresent
    have hsame : view (call.apply receiptHmac stores).1 runId artifactType = view stores runId artifactType := by
      cases call with
      | write otherRun otherType other faults =>
        obtain ⟨rfl, rfl⟩ := hconcerns
        have hdb : (faults.opens && faults.upserts) = false := by
          rw [← Bool.not_eq_true]
          intro hdone
          simp [apply, writeArtifactReceipt, hdone] at hraises
        have hwhole : faults.spoils ≠ true := by
          intro hspoils
          rcases (hmeets hdb).2 hraises hspoils with hsome | hnone
          · simp [hrow] at hsome
          · exact hfile hnone
        revert hraises
        unfold apply writeArtifactReceipt writeLegacyReceiptFallback view
        dsimp only
        split_ifs <;> simp
      | delete otherRun otherType faults =>
        obtain ⟨rfl, rfl⟩ := hconcerns
        revert hraises
        unfold apply deleteArtifactReceipt view
        dsimp only
        split_ifs <;> simp [hrow]
      | clear otherRun faults =>
        cases hconcerns
        have hlisted := (hmeets artifactType htype).2 hrow hraises
        rw [apply, view_clear, hrow, ite_self, if_neg fun h => hlisted h.1 h.2, view, hrow]
    rw [present_congr hsame, hpresent]

theorem present_of_write {faults : WriteFaults} (hmeets : (Call.write runId artifactType secret faults).Meets receiptHmac stores)
    (hreturns : ((Call.write runId artifactType secret faults).apply receiptHmac stores).2 = true) :
    artifactReceiptPresent receiptHmac ((Call.write runId artifactType secret faults).apply receiptHmac stores).1 runId artifactType
      secret = true := by
  by_cases hdb : (faults.opens && faults.upserts) = true
  · rw [present_eq, apply, writeArtifactReceipt, if_pos hdb, view, Dict.get?_set, if_pos rfl]
    cases secret with
    | none => rfl
    | some secret => simp [rowPasses]
  · rw [Bool.not_eq_true] at hdb
    have hrows : ((Call.write runId artifactType secret faults).apply receiptHmac stores).1.rows = stores.rows := by
      unfold apply writeArtifactReceipt writeLegacyReceiptFallback
      dsimp only
      split_ifs <;> simp_all
    cases hrow : stores.rows.get? (runId, artifactType) with
    | some row =>
      rw [present_eq, view, hrows, hrow]
      exact (hmeets hdb).1 hreturns row hrow
    | none =>
      have hfile : ((Call.write runId artifactType secret faults).apply receiptHmac stores).1.files.get? (receiptPath runId artifactType) =
          some (.payload runId artifactType (secret.map fun secret => receiptHmac secret runId artifactType)) := by
        revert hreturns
        unfold apply writeArtifactReceipt writeLegacyReceiptFallback
        dsimp only
        split_ifs <;> simp_all
      rw [present_eq, view, hrows, hrow, hfile]
      cases secret with
      | none => rfl
      | some secret => simp [filePasses]

theorem absent_of_removal (hmeets : call.Meets receiptHmac stores) (hplain : call.Plain) (hrun : PlainRun runId)
    (htype : PlainType artifactType) (hconcerns : call.Concerns runId artifactType)
    (hwrite : ∀ secret faults, call ≠ .write runId artifactType secret faults)
    (hreturns : (call.apply receiptHmac stores).2 = true) :
    view (call.apply receiptHmac stores).1 runId artifactType = (none, none) := by
  cases call with
  | write otherRun otherType secret faults =>
    obtain ⟨rfl, rfl⟩ := hconcerns
    exact absurd rfl (hwrite secret faults)
  | delete otherRun otherType faults =>
    obtain ⟨rfl, rfl⟩ := hconcerns
    cases hrow : stores.rows.get? (otherRun, otherType) with
    | none =>
      revert hreturns
      unfold apply deleteArtifactReceipt view
      dsimp only
      split_ifs <;> simp [hrow]
    | some row =>
      have hdone := (hmeets (by rw [hrow]; rfl)).mp hreturns
      revert hreturns
      unfold apply deleteArtifactReceipt view
      rw [Bool.and_eq_true] at hdone
      dsimp only
      cases hunlinks : faults.unlinks <;> simp [hdone.1, hdone.2]
  | clear otherRun faults =>
    cases hconcerns
    have hlisted : faults.lists = true ∧ (stores.listing runId).takeWhile faults.unlinks = stores.listing runId := by
      have hdone := hreturns
      rw [apply, clearRunReceipts] at hdone
      dsimp only at hdone
      by_cases hlists : faults.lists = true
      · rw [if_pos hlists] at hdone
        exact ⟨hlists, unlinkAll_returns.mp hdone⟩
      · rw [if_neg hlists] at hdone
        cases hdone
    have hrow : (if (faults.opens && faults.clears) = true ∧ runId = runId then none else stores.rows.get? (runId, artifactType)) =
        none := by
      cases hrow : stores.rows.get? (runId, artifactType) with
      | none => exact ite_self _
      | some row =>
        have hdone := ((hmeets artifactType htype).1 (by rw [hrow]; rfl)).mp hreturns
        rw [if_pos ⟨hdone, rfl⟩]
    have hfile : (if faults.lists = true ∧ receiptPath runId artifactType ∈ (stores.listing runId).takeWhile faults.unlinks then none
        else stores.files.get? (receiptPath runId artifactType)) = none := by
      cases hfile : stores.files.get? (receiptPath runId artifactType) with
      | none => exact ite_self _
      | some document =>
        have hmem := (mem_listing_iff hrun htype hrun).mpr ⟨by rw [hfile]; rfl, rfl⟩
        rw [hlisted.2, if_pos ⟨hlisted.1, hmem⟩]
    rw [apply, view_clear, hrow, hfile]

end Calls

/-! ## Runs -/

section Runs

variable {receiptHmac : String → String → String → String} {stores : Stores} {runId artifactType : String}
  {call : Call} {calls after : List Call} {secret : Option String}

def AllMeet (receiptHmac : String → String → String → String) : Stores → List Call → Prop
  | _, [] => True
  | stores, call :: calls =>
    call.Plain ∧ call.Meets receiptHmac stores ∧ AllMeet receiptHmac (call.apply receiptHmac stores).1 calls

def AllRaise (receiptHmac : String → String → String → String) (runId artifactType : String) : Stores → List Call → Prop
  | _, [] => True
  | stores, call :: calls =>
    (call.Concerns runId artifactType → (call.apply receiptHmac stores).2 = false) ∧
      AllRaise receiptHmac runId artifactType (call.apply receiptHmac stores).1 calls

/-- A receipt written and not changed since passes the write's secret; one removed passes none. -/
def Follows (receiptHmac : String → String → String → String) (start : Stores) (calls : List Call) : Prop :=
  ∀ (runId artifactType : String) (before : List Call) (call : Call) (after : List Call),
    PlainRun runId → PlainType artifactType → calls = before ++ call :: after → call.Concerns runId artifactType →
    (call.apply receiptHmac (run receiptHmac start before)).2 = true →
    AllRaise receiptHmac runId artifactType (call.apply receiptHmac (run receiptHmac start before)).1 after →
      (∀ secret faults, call = .write runId artifactType secret faults →
        artifactReceiptPresent receiptHmac (run receiptHmac start calls) runId artifactType secret = true) ∧
      ((∀ later ∈ call :: after, ∀ secret faults, later ≠ .write runId artifactType secret faults) →
        ∀ secret, artifactReceiptPresent receiptHmac (run receiptHmac start calls) runId artifactType secret = false)

theorem allMeet_append {before : List Call} (h : AllMeet receiptHmac stores (before ++ calls)) :
    AllMeet receiptHmac (run receiptHmac stores before) calls := by
  induction before generalizing stores with
  | nil => exact h
  | cons call before ih => exact ih h.2.2

theorem present_of_allRaise (hmeet : AllMeet receiptHmac stores after) (hrun : PlainRun runId) (htype : PlainType artifactType)
    (hraise : AllRaise receiptHmac runId artifactType stores after)
    (hpresent : artifactReceiptPresent receiptHmac stores runId artifactType secret = true) :
    artifactReceiptPresent receiptHmac (run receiptHmac stores after) runId artifactType secret = true := by
  induction after generalizing stores with
  | nil => exact hpresent
  | cons call after ih =>
    refine ih hmeet.2.2 hraise.2 ?_
    by_cases hconcerns : call.Concerns runId artifactType
    · exact present_of_raises hmeet.2.1 htype hconcerns (hraise.1 hconcerns) hpresent
    · rw [present_congr (view_of_not_concerns hmeet.1 hrun htype hconcerns), hpresent]

theorem absent_of_no_write (hmeet : AllMeet receiptHmac stores after) (hrun : PlainRun runId) (htype : PlainType artifactType)
    (hwrite : ∀ later ∈ after, ∀ secret faults, later ≠ .write runId artifactType secret faults)
    (habsent : view stores runId artifactType = (none, none)) :
    view (run receiptHmac stores after) runId artifactType = (none, none) := by
  induction after generalizing stores with
  | nil => exact habsent
  | cons call after ih =>
    refine ih hmeet.2.2 (fun later hlater => hwrite later (mem_cons_of_mem _ hlater)) ?_
    exact view_of_absent hmeet.1 hrun htype (hwrite call mem_cons_self) habsent

/-- In a run whose calls all meet the condition, the verdicts follow the calls. -/
theorem receipts_follow (receiptHmac : String → String → String → String) (start : Stores) (calls : List Call)
    (hmeet : AllMeet receiptHmac start calls) : Follows receiptHmac start calls := by
  rintro runId artifactType before call after hrun htype rfl hconcerns hreturns hraise
  obtain ⟨hplain, hcall, hafter⟩ := allMeet_append hmeet
  have hsplit : run receiptHmac start (before ++ call :: after) =
      run receiptHmac (call.apply receiptHmac (run receiptHmac start before)).1 after := by
    rw [run, foldl_append, foldl_cons]
    rfl
  rw [hsplit]
  constructor
  · rintro secret faults rfl
    exact present_of_allRaise hafter hrun htype hraise (present_of_write hcall hreturns)
  · intro hwrite secret
    have habsent := absent_of_removal hcall hplain hrun htype hconcerns (hwrite call mem_cons_self) hreturns
    have hlater := absent_of_no_write hafter hrun htype (fun later hlater => hwrite later (mem_cons_of_mem _ hlater)) habsent
    rw [present_eq, hlater]

end Runs

/-! ## A write under an old row -/

def brokerHmac (_secret _runId _artifactType : String) : String :=
  "b4d04c1c331cf15a32e8ee1ceb01944582b6829c46df91848d4ce408f159bb1f"

/-- A receipt without a secret, and one with it while the database cannot be opened. -/
def shadowed : List Call := [.write "run-1" "plan" none {}, .write "run-1" "plan" (some "broker") { opens := false }]

def renewed : List Call := [.write "run-1" "plan" none {}, .write "run-1" "plan" (some "broker") {}]

/-- The row without an HMAC stands before the file with one. -/
theorem shadowed_not_followed : ¬ Follows brokerHmac {} shadowed := by
  intro hfollows
  have hpresent := (hfollows "run-1" "plan" [.write "run-1" "plan" none {}]
    (.write "run-1" "plan" (some "broker") { opens := false }) [] (by decide) (by decide) rfl ⟨rfl, rfl⟩
    (by decide +kernel) trivial).1 (some "broker") _ rfl
  exact absurd hpresent (by decide +kernel)

theorem renewed_followed : AllMeet brokerHmac {} renewed ∧ Follows brokerHmac {} renewed := by
  have hmeet : AllMeet brokerHmac {} renewed :=
    ⟨⟨by decide, by decide⟩, nofun, ⟨by decide, by decide⟩, nofun, trivial⟩
  exact ⟨hmeet, receipts_follow brokerHmac {} renewed hmeet⟩

end RalphWorkflow.CompletionReceipts
