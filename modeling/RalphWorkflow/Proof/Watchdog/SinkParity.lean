import RalphWorkflow.Agents.OpenCodeChildren

/-! The lines that go to the sink as a child's work and leave no trace of it in the registry. -/
namespace RalphWorkflow.Agents.OpenCodeChildren
open Option Bool
open Lib.Json (Text)
open Lib.JsonValue (Json getField loadsObject)
open SubagentOutput (ChildLivenessRegistry)

/-! ## Records of a child -/

section Records

variable {registry : ChildLivenessRegistry} {childId : String} {now : ℚ}

def Heard (registry : ChildLivenessRegistry) (childId : String) (now : ℚ) : Prop :=
  ∃ record, registry.records.get? childId = some record ∧ record.lastHeartbeatAt = some now

/-- Registered, and not terminal. -/
def Live (registry : ChildLivenessRegistry) (childId : String) : Prop :=
  ∃ record, registry.records.get? childId = some record ∧ record.terminalState = none

theorem get?_amend (change : SubagentOutput.MutableRecord → SubagentOutput.MutableRecord) (key : String) :
    (registry.amend key change).records.get? childId =
      if childId = key then (registry.records.get? childId).map change else registry.records.get? childId := by
  unfold ChildLivenessRegistry.amend
  cases hrecord : registry.records.get? key with
  | none => split_ifs with hkey <;> simp [hkey, hrecord]
  | some record => by_cases hkey : childId = key <;> simp [hkey, hrecord, Lib.Dict.get?_set]

theorem heard_recordProgress (hchild : (registry.records.get? childId).isSome) (phase : Option String) :
    Heard (registry.recordProgress childId now phase) childId now := by
  obtain ⟨record, hrecord⟩ := isSome_iff_exists.mp hchild
  exact ⟨_, by rw [ChildLivenessRegistry.recordProgress, get?_amend, if_pos rfl, hrecord]; rfl, rfl⟩

theorem heard_recordHeartbeat (hchild : (registry.records.get? childId).isSome) : Heard (registry.recordHeartbeat childId now) childId now := by
  obtain ⟨record, hrecord⟩ := isSome_iff_exists.mp hchild
  exact ⟨_, by rw [ChildLivenessRegistry.recordHeartbeat, get?_amend, if_pos rfl, hrecord]; rfl, rfl⟩

theorem Heard.recordTerminalAck (hheard : Heard registry childId now) (key state : String) (instant : ℚ) :
    Heard (registry.recordTerminalAck key instant state) childId now := by
  obtain ⟨record, hrecord, hnow⟩ := hheard
  unfold Heard ChildLivenessRegistry.recordTerminalAck
  rw [get?_amend, hrecord]
  split_ifs
  · exact ⟨_, rfl, hnow⟩
  · exact ⟨_, rfl, hnow⟩

end Records

/-! ## The two readings of a line -/

variable {python : Python} {fields : Fields}

theorem named_iff {names : List String} {text : Text} : named names text = true ↔ ∃ name ∈ names, name.toList = text :=
  List.any_eq_true.trans (exists_congr fun _ => and_congr_right fun _ => decide_eq_true_iff)

theorem toolName_eq_none (h : named toolEventTypes (eventType python fields) = false) : toolName python fields = none := by
  simp [toolName, h]

theorem toolSignal_of_toolName (h : toolName python fields = none) : toolSignal python fields = some none := by
  rw [toolSignal, h]
  rfl

theorem nativeTaskCallId_of_toolName (h : toolName python fields = none) : nativeTaskCallId python fields = none := by
  rw [nativeTaskCallId, h]
  rfl

/-- No name is one of the lifecycle and one that needs a scope key, or one of a tool event. -/
theorem childKind_eq_none {text : Text} (h : named (scopedProgressTypes ++ scopedHeartbeatTypes) text = true) : childKind text = none := by
  obtain ⟨name, hname, rfl⟩ := named_iff.mp h
  revert name
  decide

theorem toolEvent_of_childKind {text : Text} (h : (childKind text).isSome) : named toolEventTypes text = false := by
  by_contra hnamed
  obtain ⟨name, hname, rfl⟩ := named_iff.mp (of_not_eq_false hnamed)
  revert h
  revert name
  decide

theorem toolEvent_eq_false {text : Text} (h : named (scopedProgressTypes ++ scopedHeartbeatTypes) text = true) :
    named toolEventTypes text = false := by
  obtain ⟨name, hname, rfl⟩ := named_iff.mp h
  revert name
  decide

theorem routeLifecycleEvent_eq_nil {childId text : Text} (h : childKind text = none) : routeLifecycleEvent python fields childId text = [] := by
  unfold childKind at h
  unfold routeLifecycleEvent
  split_ifs at h ⊢
  rfl

theorem childKind_isWork {text : Text} {kind : AgentActivityKind} (h : childKind text = some kind) (hwork : isWork kind = true) :
    named childSpawnTypes text = false ∧ (named childProgressTypes text = true ∨
      named childProgressTypes text = false ∧ named childHeartbeatTypes text = true) := by
  unfold childKind at h
  split_ifs at h <;> cases h <;> simp_all [isWork]

theorem classifyGenericFromText_line (line : Line) : classifyGenericFromText python line.text = none := by
  obtain ⟨rest, hrest⟩ := List.head?_eq_some_iff.mp line.opens
  have hnone : ∀ marker ∈ ["subagent heartbeat", "child heartbeat", "[child]", "[subagent]", "subagent progress", "child progress"],
      afterMarker line.text marker = none := by
    unfold afterMarker
    rw [hrest]
    simp only [List.forall_mem_cons]
    exact ⟨rfl, rfl, rfl, rfl, rfl, rfl, nofun⟩
  simp only [List.forall_mem_cons] at hnone
  simp [classifyGenericFromText, markedWord, hnone]

theorem classifyGenericFromJson_isWork {kind : AgentActivityKind} (h : classifyGenericFromJson python fields = some kind) : isWork kind = true := by
  obtain ⟨text, -, hkind⟩ := bind_eq_some_iff.mp h
  split_ifs at hkind <;> cases hkind <;> rfl

/-! ## Missed lines -/

/-- Lines of a child's work passed over: no scope key, a task without status or call id, a spelling of one side. -/
def Missed (python : Python) (fields : Fields) : Prop :=
  (scopedChildKind python fields).isSome ∨
    toolSignal python fields = some (some .childProgress) ∧
      (nativeTaskCallId python fields = none ∨
        ¬ ∃ state, taskState fields = some state ∧
          named ["pending", "running", "completed", "error"] (strField python state "status" "") = true) ∨
    childKind (eventType python fields) = none ∧ toolName python fields = none ∧ (classifyGenericFromJson python fields).isSome

def RegistryCall.reports (childId : Text) : RegistryCall → Prop
  | .recordProgress child _ | .recordHeartbeat child => child = childId
  | _ => False

def Recorded (observed : Observed) (childId : Text) (now : ℚ) : Prop :=
  (∃ call ∈ observed.calls, call.reports childId) ∧ Heard observed.registry (.ofList childId) now

section Readings

variable {childId : Text} {now : ℚ}

theorem routeLine_of_toolName (hname : toolName python fields = none) (hchild : parseChildId python fields = some childId) :
    routeLine python fields = routeLifecycleEvent python fields childId (eventType python fields) := by
  have hnative := nativeTaskCallId_of_toolName hname
  rw [parseChildId, hnative, none_or] at hchild
  rw [routeLine, hnative, hchild]

/-- A lifecycle name: what is handed on is recorded. -/
theorem reads_lifecycle {kind : AgentActivityKind} (hkind : childKind (eventType python fields) = some kind) :
    classifyChildSignal python fields = some (some kind) ∧ toolName python fields = none ∧ ¬ Missed python fields := by
  have hname : toolName python fields = none := toolName_eq_none (toolEvent_of_childKind (by rw [hkind]; rfl))
  have hscoped : scopedChildKind python fields = none := by
    unfold scopedChildKind
    cases hnamed : named (scopedProgressTypes ++ scopedHeartbeatTypes) (eventType python fields) with
    | false => rfl
    | true => rw [childKind_eq_none hnamed] at hkind; cases hkind
  refine ⟨by rw [classifyChildSignal, hkind], hname, ?_⟩
  rintro (h | ⟨h, -⟩ | ⟨h, -⟩)
  · rw [hscoped] at h; cases h
  · rw [toolSignal_of_toolName hname] at h; cases h
  · rw [hkind] at h; cases h

theorem reads_scoped {kind : AgentActivityKind} (hkind : scopedChildKind python fields = some kind) :
    isWork kind = true ∧ toolName python fields = none ∧ childKind (eventType python fields) = none := by
  unfold scopedChildKind at hkind
  cases hnamed : named (scopedProgressTypes ++ scopedHeartbeatTypes) (eventType python fields) with
  | false => simp only [hnamed, Bool.not_false, if_true, reduceCtorEq] at hkind
  | true =>
    refine ⟨?_, toolName_eq_none (toolEvent_eq_false hnamed), childKind_eq_none hnamed⟩
    split_ifs at hkind <;> cases hkind <;> rfl

theorem classify_of_toolName (hname : toolName python fields ≠ none) :
    childKind (eventType python fields) = none ∧ classifyChildSignal python fields = toolSignal python fields := by
  have hkind : childKind (eventType python fields) = none := by
    by_contra h
    exact hname (toolName_eq_none (toolEvent_of_childKind (isSome_iff_ne_none.mpr h)))
  have hscoped : scopedChildKind python fields = none := by
    by_contra h
    obtain ⟨kind, hscoped⟩ := ne_none_iff_exists'.mp h
    exact hname (reads_scoped hscoped).2.1
  exact ⟨hkind, by rw [classifyChildSignal, hkind, hscoped]⟩

theorem toolSignal_isWork {kind : AgentActivityKind} (h : toolSignal python fields = some (some kind)) (hwork : isWork kind = true) :
    kind = .childProgress := by
  unfold toolSignal at h
  by_cases htool : isSubagentTool python (toolName python fields) = true
  · rw [if_pos htool] at h
    split at h
    · split_ifs at h <;> cases h <;> first | rfl | cases hwork
    · split_ifs at h
      cases h
      rfl
    · cases h
      rfl
  · rw [if_neg htool] at h
    obtain ⟨name, -, hkind⟩ := map_eq_some_iff.mp (Option.some.inj h)
    split_ifs at hkind <;> cases hkind <;> cases hwork

theorem toolName_of_toolSignal (h : toolSignal python fields = some none) : toolName python fields = none := by
  unfold toolSignal at h
  by_cases htool : isSubagentTool python (toolName python fields) = true
  · rw [if_pos htool] at h
    split at h
    · cases h
    · split_ifs at h
      cases h
    · cases h
  · rw [if_neg htool] at h
    exact map_eq_none_iff.mp (Option.some.inj h)

theorem routeLine_eq_nil (hkind : childKind (eventType python fields) = none) (hnative : nativeTaskCallId python fields = none) :
    routeLine python fields = [] := by
  rw [routeLine, hnative]
  cases childIdFromObject python fields with
  | none => rfl
  | some childId => exact routeLifecycleEvent_eq_nil hkind

theorem routeNativeTask_eq_nil {callId : Text} (h : ¬ ∃ state, taskState fields = some state ∧
      named ["pending", "running", "completed", "error"] (strField python state "status" "") = true) :
    routeNativeTask python fields callId = [] := by
  unfold routeNativeTask
  cases hstate : taskState fields with
  | none => rfl
  | some state => exact if_pos (by simpa using fun hnamed => h ⟨state, hstate, hnamed⟩)

/-- A missed line goes to the sink, and no call is made. -/
theorem handed_of_missed {line : Line} (hchild : (parseChildId python line.fields).isSome) (hmissed : Missed python line.fields) :
    handsToSink python line = some true ∧ routeLine python line.fields = [] := by
  have hscopedCase : ∀ kind, scopedChildKind python line.fields = some kind →
      handsToSink python line = some true ∧ routeLine python line.fields = [] := by
    intro kind hscoped
    obtain ⟨hwork, hname, hkind⟩ := reads_scoped hscoped
    refine ⟨?_, routeLine_eq_nil hkind (nativeTaskCallId_of_toolName hname)⟩
    rw [handsToSink, classifyChildSignal, hkind, hscoped]
    exact congrArg some (and_eq_true_iff.mpr ⟨hwork, hchild⟩)
  rcases hmissed with hscoped | ⟨hsignal, htask⟩ | ⟨hkind, hname, hgeneric⟩
  · obtain ⟨kind, hscoped⟩ := isSome_iff_exists.mp hscoped
    exact hscopedCase kind hscoped
  · have hname : toolName python line.fields ≠ none := by
      intro hname
      rw [toolSignal_of_toolName hname] at hsignal
      cases hsignal
    obtain ⟨hkind, hclassify⟩ := classify_of_toolName hname
    refine ⟨by rw [handsToSink, hclassify, hsignal]; exact congrArg some hchild, ?_⟩
    cases hnative : nativeTaskCallId python line.fields with
    | none => exact routeLine_eq_nil hkind hnative
    | some callId =>
      rw [routeLine, hnative]
      exact routeNativeTask_eq_nil (htask.resolve_left (by rw [hnative]; exact some_ne_none _))
  · cases hscoped : scopedChildKind python line.fields with
    | some kind => exact hscopedCase kind hscoped
    | none =>
      obtain ⟨kind, hjson⟩ := isSome_iff_exists.mp hgeneric
      refine ⟨?_, routeLine_eq_nil hkind (nativeTaskCallId_of_toolName hname)⟩
      have hwork := classifyGenericFromJson_isWork hjson
      rw [handsToSink, classifyChildSignal, hkind, hscoped, toolSignal_of_toolName hname, classifyGenericChildSignal, hjson]
      exact congrArg some hwork

variable {registry : ChildLivenessRegistry} {scopePrefix : String}

theorem recorded_lifecycle {kind : AgentActivityKind} (hkind : childKind (eventType python fields) = some kind) (hwork : isWork kind = true)
    (hlive : (registry.records.get? (.ofList childId)).isSome) :
    ∃ call, routeLifecycleEvent python fields childId (eventType python fields) = [call] ∧ call.reports childId ∧
      Heard (call.perform scopePrefix now registry) (.ofList childId) now := by
  obtain ⟨hspawn, hprogress | ⟨hprogress, hheartbeat⟩⟩ := childKind_isWork hkind hwork
  · unfold routeLifecycleEvent
    simp only [hspawn, hprogress, false_eq_true, if_false, if_true]
    split
    · exact ⟨_, rfl, rfl, heard_recordProgress hlive _⟩
    · exact ⟨_, rfl, rfl, heard_recordProgress hlive _⟩
    · exact ⟨_, rfl, rfl, heard_recordProgress hlive _⟩
  · unfold routeLifecycleEvent
    simp only [hspawn, hprogress, hheartbeat, false_eq_true, if_false, if_true]
    exact ⟨_, rfl, rfl, heard_recordHeartbeat hlive⟩

/-- Acknowledgements leave a heartbeat as it is. -/
theorem Heard.acks (acks : List (Text × Text)) {registry : ChildLivenessRegistry} {childId : String} (h : Heard registry childId now) :
    Heard ((acks.map fun ack => RegistryCall.recordTerminalAck ack.1 ack.2).foldl (RegistryCall.perform scopePrefix now) registry) childId
      now := by
  induction acks generalizing registry with
  | nil => exact h
  | cons ack acks ih => exact ih (h.recordTerminalAck _ _ _)

theorem recorded_nativeTask {state : Fields} (hstate : taskState fields = some state)
    (hstatus : named ["pending", "running", "completed", "error"] (strField python state "status" "") = true) :
    (∃ call ∈ routeNativeTask python fields childId, call.reports childId) ∧
      Heard ((routeNativeTask python fields childId).foldl (RegistryCall.perform scopePrefix now) registry) (.ofList childId) now := by
  have hroute : ∃ acks : List (Text × Text), routeNativeTask python fields childId =
      .registerChild childId "spawned" :: .recordProgress childId (some (strField python state "status" "")) ::
        acks.map fun ack => .recordTerminalAck ack.1 ack.2 := by
    unfold routeNativeTask
    rw [hstate]
    dsimp only
    rw [if_neg (by simp [hstatus])]
    split_ifs
    · cases nativeTaskSessionId state with
      | none => exact ⟨[(childId, _)], rfl⟩
      | some session => exact ⟨[(childId, _), (session, _)], rfl⟩
    · exact ⟨[], rfl⟩
  obtain ⟨acks, hroute⟩ := hroute
  rw [hroute]
  refine ⟨⟨_, List.mem_cons_of_mem _ List.mem_cons_self, rfl⟩, ?_⟩
  refine Heard.acks acks (heard_recordProgress ?_ _)
  rw [RegistryCall.perform, ChildLivenessRegistry.registerChild, Lib.Dict.get?_set, if_pos rfl]
  rfl

/-- Any other line that goes to the sink as the work of a live child is recorded. -/
theorem recorded_of_handed {line : Line} (hchild : parseChildId python line.fields = some childId) (hlive : Live registry (.ofList childId))
    (hhanded : handsToSink python line = some true) (hmissed : ¬ Missed python line.fields) :
    (∃ call ∈ routeLine python line.fields, call.reports childId) ∧
      Heard ((routeLine python line.fields).foldl (RegistryCall.perform scopePrefix now) registry) (.ofList childId) now := by
  obtain ⟨signal, hclassify, hwork⟩ := map_eq_some_iff.mp hhanded
  cases hkind : childKind (eventType python line.fields) with
  | some kind =>
    obtain ⟨hsignal, hname, -⟩ := reads_lifecycle hkind
    cases hsignal.symm.trans hclassify
    obtain ⟨record, hrecord, -⟩ := hlive
    obtain ⟨call, hcall, hreports, hheard⟩ := recorded_lifecycle hkind (and_eq_true_iff.mp hwork).1 (isSome_of_eq_some hrecord)
    rw [routeLine_of_toolName hname hchild, hcall]
    exact ⟨⟨call, List.mem_cons_self, hreports⟩, hheard⟩
  | none =>
    have hscoped : scopedChildKind python line.fields = none := not_isSome_iff_eq_none.mp fun h => hmissed (.inl h)
    have htool : toolSignal python line.fields = some signal := by rwa [classifyChildSignal, hkind, hscoped] at hclassify
    cases signal with
    | none =>
      refine absurd (.inr (.inr ⟨hkind, toolName_of_toolSignal htool, ?_⟩)) hmissed
      cases hjson : classifyGenericFromJson python line.fields with
      | some kind => rfl
      | none =>
        dsimp only at hwork
        rw [classifyGenericChildSignal, hjson, classifyGenericFromText_line] at hwork
        cases hwork
    | some kind =>
      cases toolSignal_isWork htool (and_eq_true_iff.mp hwork).1
      have htask := not_or.mp fun h => hmissed (.inr (.inl ⟨htool, h⟩))
      obtain ⟨callId, hnative⟩ := ne_none_iff_exists'.mp htask.1
      obtain ⟨state, hstate, hstatus⟩ := not_not.mp htask.2
      cases (show some callId = some childId by rw [← hchild, parseChildId, hnative, some_or])
      rw [routeLine, hnative]
      exact recorded_nativeTask hstate hstatus

end Readings

/-! ## Parity -/

theorem recorded_iff_not_missed (python : Python) (hasSink : Bool) (scopePrefix : String) (now : ℚ) (registry : ChildLivenessRegistry)
    (line : Line) :
    (∀ observed, observeLine python hasSink scopePrefix now registry line = some observed → observed.handed = true →
      ∀ childId, parseChildId python line.fields = some childId → Live registry (.ofList childId) → Recorded observed childId now) ↔
    (hasSink = true → (line.strict && (getField "type".toList line.fields).any unhashable) = false →
      (∃ childId, parseChildId python line.fields = some childId ∧ Live registry (.ofList childId)) → ¬ Missed python line.fields) := by
  unfold observeLine
  constructor
  · rintro hrecorded rfl hstrict ⟨childId, hchild, hlive⟩ hmissed
    obtain ⟨hhanded, hroute⟩ := handed_of_missed (isSome_of_eq_some hchild) hmissed
    rw [if_neg (by rw [hstrict]; exact false_ne_true), if_pos rfl, hhanded] at hrecorded
    obtain ⟨⟨call, hcall, -⟩, -⟩ := hrecorded _ rfl rfl childId hchild hlive
    dsimp only at hcall
    rw [hroute] at hcall
    cases hcall
  · intro hnot observed hobserved hhanded childId hchild hlive
    obtain ⟨hstrict, hobserved⟩ := ite_none_left_eq_some.mp hobserved
    obtain ⟨handed, hhands, rfl⟩ := map_eq_some_iff.mp hobserved
    cases hhanded
    cases hasSink with
    | false => cases hhands
    | true =>
      exact recorded_of_handed hchild hlive hhands (hnot rfl (not_eq_true _ ▸ hstrict) ⟨childId, hchild, hlive⟩)

/-- For texts of ASCII; no value of another type is asked for. -/
def asciiPython : Python :=
  { str := fun _ => [], isZero := fun literal => literal.all (· == '0'), lower := List.map Char.toLower, isWord := Char.isAlphanum }

def toolCallOfChild : Line :=
  { text := "\x7b\"type\": \"tool_call\", \"child_id\": \"A\"\x7d".toList
    fields := [("type".toList, .str "tool_call".toList), ("child_id".toList, .str "A".toList)]
    strict := true
    opens := by decide }

example : loadsObject toolCallOfChild.text = some toolCallOfChild.fields := rfl

def childRunning : ChildLivenessRegistry :=
  ChildLivenessRegistry.registerChild { progressTtl := 45, heartbeatTtl := 30, staleLabelTtl := 30, exitReconcile := 5 } "A" 0 "" "spawned"

theorem tool_call_leaves_no_record :
    ∃ observed, observeLine asciiPython true "" 10 childRunning toolCallOfChild = some observed ∧ observed.handed = true ∧
      parseChildId asciiPython toolCallOfChild.fields = some ['A'] ∧ Live childRunning (.ofList ['A']) ∧ ¬ Recorded observed ['A'] 10 := by
  refine ⟨⟨true, [], childRunning⟩, rfl, rfl, rfl, ⟨_, rfl, rfl⟩, ?_⟩
  rintro ⟨⟨call, hcall, -⟩, -⟩
  cases hcall

end RalphWorkflow.Agents.OpenCodeChildren
