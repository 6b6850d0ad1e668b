import RalphWorkflow.Lib.SealedChain
import RalphWorkflow.Proof.WireLedger.Message

/-! Every way in which a record fails to be unequivocal gives another row for its message. -/
/-! ## The ledger as a chain of sealed records

What `verify_chain` accepts and what `append_wire_record` makes, as `Linked` records with the HMAC of their own
message.
-/

namespace RalphWorkflow.Mcp.WireLedger

open Lib List
open Lib.Json (Text Value)


variable {Number : Type} [PyNumber Number] {mac : Mac} {records : List (WireLedgerRecord Number)}
  {record : WireLedgerRecord Number} {rows : List (Row Number)} {frames : List (Frame Number)} {start : Text}

def WireLedgerRecord.Sealed (mac : Mac) (record : WireLedgerRecord Number) : Prop :=
  record.recordHmac = mac.recordHmac record.toSigned

abbrev Chained (start : Text) (records : List (WireLedgerRecord Number)) : Prop :=
  Linked (·.priorHmac) (·.recordHmac) start records

omit [PyNumber Number] in
@[simp] theorem WireLedgerRecord.record?_row (record : WireLedgerRecord Number) : Row.record? record.row = some record := by
  have htool : (record.row .toolName).strOrNull? = some record.toolName := Value.strOrNull?_ofOption _
  have hoptional : (fun field => (record.row (.optional field)).str?) = record.optional :=
    funext fun field => Value.str?_ofOption _
  simp only [Row.record?, htool, hoptional]
  rfl

omit [PyNumber Number] in
theorem Row.hmac_of_record? {row : Row Number} (hrecord : Row.record? row = some record) : row .hmac = .str record.recordHmac := by
  simp only [Row.record?, Option.bind_eq_bind, Option.bind_eq_some_iff, Option.some.injEq] at hrecord
  obtain ⟨_, _, _, _, _, _, _, _, _, _, stored, hstored, _, _, rfl⟩ := hrecord
  cases hvalue : row .hmac with
  | str text => rw [hvalue] at hstored; exact congrArg Value.str (Option.some.inj hstored)
  | null => rw [hvalue] at hstored; cases hstored
  | num number => rw [hvalue] at hstored; cases hstored
  | other => rw [hvalue] at hstored; cases hstored

theorem verifyRows_iff : verifyRows mac start rows = true ↔ ∃ records, rows.map Row.record? = records.map some ∧ Chained start records ∧
        ∀ record ∈ records, record.Sealed mac := by
  induction rows generalizing start with
  | nil =>
    refine ⟨fun _ => ⟨[], rfl, trivial, fun record hrecord => absurd hrecord not_mem_nil⟩, fun _ => rfl⟩
  | cons row rows ih =>
    rw [verifyRows]
    cases hrecord : Row.record? row with
    | none =>
      refine ⟨fun h => (Bool.false_ne_true h).elim, ?_⟩
      rintro ⟨records, hreads, -⟩
      cases records with
      | nil => cases hreads
      | cons first records =>
        rw [map_cons, map_cons, hrecord] at hreads
        cases (List.cons.inj hreads).1
    | some record =>
      simp only [Bool.and_eq_true, decide_eq_true_eq, ih]
      constructor
      · rintro ⟨⟨hprior, hsealed⟩, records, hreads, hchained, hall⟩
        refine ⟨record :: records, by rw [map_cons, map_cons, hrecord, hreads], ⟨hprior, hchained⟩, ?_⟩
        exact forall_mem_cons.mpr ⟨hsealed, hall⟩
      · rintro ⟨records, hreads, hchained, hall⟩
        cases records with
        | nil => cases hreads
        | cons first records =>
          rw [map_cons, map_cons, hrecord] at hreads
          obtain ⟨hfirst, htail⟩ := List.cons.inj hreads
          cases hfirst
          obtain ⟨hsealed, hall⟩ := forall_mem_cons.mp hall
          exact ⟨⟨hchained.1, hsealed⟩, records, htail, hchained.2, hall⟩

theorem verifyChain_row (records : List (WireLedgerRecord Number)) (hchained : Chained genesisHmac.text records) (hsealed : ∀ record ∈ records, record.Sealed mac) :
    verifyChain mac (records.map (·.row)) = true := by
  refine verifyRows_iff.mpr ⟨records, ?_, hchained, hsealed⟩
  rw [map_map]
  exact map_congr_left fun record _ => record.record?_row

omit [PyNumber Number] in
theorem readLastHmac_row : readLastHmac (records.map (·.row)) = lastMark (·.recordHmac) genesisHmac.text records := by
  induction records using List.reverseRecOn with
  | nil => rfl
  | append_singleton records record ih =>
    rw [readLastHmac, map_append, map_singleton, List.getLast?_concat, lastMark_append]
    rfl

/-- Made by appends: a chain from the genesis, each record sealed. -/
structure Made (mac : Mac) (records : List (WireLedgerRecord Number)) : Prop where
  chained : Chained genesisHmac.text records
  sealed : ∀ record ∈ records, record.Sealed mac
  digest : ∀ record ∈ records, ∃ digest : Token, record.paramsDigest = digest.text

theorem Made.nil : Made mac ([] : List (WireLedgerRecord Number)) :=
  ⟨trivial, fun _ hrecord => absurd hrecord not_mem_nil, fun _ hrecord => absurd hrecord not_mem_nil⟩

theorem Made.append (hmade : Made mac records) (frame : Frame Number) : Made mac (records ++ [newRecord mac (records.map (·.row)) frame]) := by
  refine ⟨linked_append.mpr ⟨hmade.chained, readLastHmac_row, trivial⟩, ?_, ?_⟩
  · intro record hrecord
    rcases mem_append.mp hrecord with hold | hnew
    · exact hmade.sealed record hold
    · cases mem_singleton.mp hnew
      rfl
  · intro record hrecord
    rcases mem_append.mp hrecord with hold | hnew
    · exact hmade.digest record hold
    · cases mem_singleton.mp hnew
      exact ⟨frame.paramsDigest, rfl⟩

theorem Made.appendFrom (hmade : Made mac records) (frames : List (Frame Number)) : Made mac (appendFrom mac records frames) := by
  induction frames generalizing records with
  | nil => exact hmade
  | cons frame frames ih => exact ih (hmade.append frame)

theorem appended_made : Made mac (appended mac frames) := Made.nil.appendFrom frames

omit [PyNumber Number] in
theorem appendFrom_length [PyNumber Number] : (appendFrom mac records frames).length = records.length + frames.length := by
  induction frames generalizing records with
  | nil => rfl
  | cons frame frames ih =>
    rw [WireLedger.appendFrom, ih, length_append, length_singleton, length_cons]
    omega

theorem appended_eq_nil_iff : appended mac frames = [] ↔ frames = [] := by
  rw [← length_eq_zero_iff, appended, appendFrom_length, length_nil, Nat.zero_add, length_eq_zero_iff]

def marks (mac : Mac) (records : List (WireLedgerRecord Number)) : List Token :=
  genesisHmac :: records.map fun record => mac.hexdigest record.message

theorem Made.marks_text (hmade : Made mac records) : (marks mac records).map (·.text) = genesisHmac.text :: records.map (·.recordHmac) := by
  rw [marks, map_cons, map_map]
  exact congrArg _ (map_congr_left fun record hrecord => (hmade.sealed record hrecord).symm)

theorem Made.exists_mark (hmade : Made mac records) {text : Text}
    (htext : text ∈ genesisHmac.text :: records.map (·.recordHmac)) : ∃ mark ∈ marks mac records, text = mark.text := by
  rw [← hmade.marks_text] at htext
  obtain ⟨mark, hmark, rfl⟩ := mem_map.mp htext
  exact ⟨mark, hmark, rfl⟩

theorem WireLedgerRecord.Sealed.ne_genesis (hsealed : record.Sealed mac) : record.recordHmac ≠ genesisHmac.text :=
  fun heq => mac.ne_genesis _ (hsealed.symm.trans heq)

theorem WireLedgerRecord.Sealed.message_eq {other : WireLedgerRecord Number} (hsealed : record.Sealed mac)
    (hother : other.Sealed mac) (hsame : record.recordHmac = other.recordHmac) : record.message = other.message := by
  have htext : (mac.hexdigest record.message).text = (mac.hexdigest other.message).text :=
    (hsealed.symm.trans hsame).trans hother
  have htoken : mac.hexdigest record.message = mac.hexdigest other.message := by
    cases hone : mac.hexdigest record.message
    cases htwo : mac.hexdigest other.message
    rw [hone, htwo] at htext
    cases htext
    rfl
  exact mac.injective htoken

end RalphWorkflow.Mcp.WireLedger

namespace RalphWorkflow.Mcp.WireLedger
open List OptionalField

open Lib.Json (Text Value)


section

variable {optional : OptionalField → Option Text} {fields before after : List OptionalField} {field : OptionalField}

theorem optionText_single (hnodup : fields.Nodup) (hfield : field ∈ fields) (value : Text) :
    optionText (fun other => if other = field then some value else none) fields = field.start ++ value := by
  induction fields with
  | nil => exact absurd hfield not_mem_nil
  | cons first fields ih =>
    obtain ⟨hfresh, hnodup⟩ := nodup_cons.mp hnodup
    by_cases hfirst : first = field
    · subst hfirst
      rw [optionText_cons_some (if_pos rfl), optionText_of_none, append_nil]
      intro other hother
      exact if_neg fun heq : other = first => hfresh (heq ▸ hother)
    · rw [optionText_cons_none (if_neg hfirst)]
      exact ih hnodup ((mem_cons.mp hfield).resolve_left (Ne.symm hfirst))

def replaceFrom (optional : OptionalField → Option Text) (before : List OptionalField) (field : OptionalField)
    (value : Text) (rest : OptionalField → Option Text) : OptionalField → Option Text :=
  fun other => if other ∈ before then optional other else if other = field then some value else rest other

theorem optionText_replaceFrom (optional : OptionalField → Option Text) (hnodup : (before ++ field :: after).Nodup) (value : Text)
    (rest : OptionalField → Option Text) :
    optionText (replaceFrom optional before field value rest) (before ++ field :: after) =
      optionText optional before ++ (field.start ++ (value ++ optionText rest after)) := by
  obtain ⟨-, hafter, hapart⟩ := nodup_append.mp hnodup
  obtain ⟨hfresh, -⟩ := nodup_cons.mp hafter
  have hfield : field ∉ before := fun hmem => hapart field hmem field mem_cons_self rfl
  have hbefore : optionText (replaceFrom optional before field value rest) before = optionText optional before :=
    optionText_congr fun other hother => if_pos hother
  have hrest : optionText (replaceFrom optional before field value rest) after = optionText rest after := by
    refine optionText_congr fun other hother => ?_
    have hnotBefore : other ∉ before := fun hmem => hapart other hmem other (mem_cons_of_mem _ hother) rfl
    have hne : other ≠ field := fun heq => hfresh (heq ▸ hother)
    rw [replaceFrom, if_neg hnotBefore, if_neg hne]
  have hvalue : replaceFrom optional before field value rest field = some value := by
    rw [replaceFrom, if_neg hfield, if_pos rfl]
  rw [optionText_append, optionText_cons_some hvalue, hbefore, hrest]

theorem optionText_split (before : List OptionalField) {value : Text} (hvalue : optional field = some value) :
    optionText optional (before ++ field :: after) =
      optionText optional before ++ (field.start ++ (value ++ optionText optional after)) := by
  rw [optionText_append, optionText_cons_some hvalue]

end

variable {Number : Type} [PyNumber Number]

/-- No other row that names one of the marks has the message of `s`. -/
def Signed.SoleReading (marks : List Token) (s : Signed Number) : Prop :=
  ∀ (forged : Signed Number), ∀ mark ∈ marks, forged.priorHmac = mark.text → forged.message = s.message → forged = s

variable {marks : List Token} {s : Signed Number} {prior : Token}

section

variable (hsole : s.SoleReading marks) (hprior : s.priorHmac = prior.text) (hmark : prior ∈ marks)

include hsole hprior hmark

theorem Signed.SoleReading.named : s.toolName ≠ none ∧ s.toolName ≠ some [] := by
  constructor
  · intro hnone
    have hsame := hsole { s with toolName := some [] } prior hmark hprior (by simp [message, hnone])
    have htool : some [] = s.toolName := congrArg Signed.toolName hsame
    rw [hnone] at htool
    cases htool
  · intro hempty
    have hsame := hsole { s with toolName := none } prior hmark hprior (by simp [message, hempty])
    have htool : none = s.toolName := congrArg Signed.toolName hsame
    rw [hempty] at htool
    cases htool

theorem Signed.SoleReading.method_line : '\n' ∉ s.method := by
  intro hmem
  obtain ⟨before, after, hsplit⟩ := append_of_mem hmem
  have hsame := hsole { s with method := before, toolName := some (after ++ '\n' :: s.toolName.getD []) } prior hmark
    hprior (by simp [message, hsplit])
  have hmethod : before = s.method := congrArg Signed.method hsame
  have hlength := congrArg List.length (hmethod.trans hsplit)
  simp at hlength

theorem Signed.SoleReading.toolName_line : '\n' ∉ s.toolName.getD [] := by
  intro hmem
  obtain ⟨before, after, hsplit⟩ := append_of_mem hmem
  have hsame := hsole { s with toolName := some before, paramsDigest := after ++ '\n' :: s.paramsDigest } prior hmark
    hprior (by simp [message, hsplit])
  have htool : some before = s.toolName := congrArg Signed.toolName hsame
  rw [← htool] at hsplit
  have hlength := congrArg List.length hsplit
  simp at hlength

theorem Signed.SoleReading.runId_line : '\n' ∉ s.runId := by
  intro hmem
  obtain ⟨before, after, hsplit⟩ := append_of_mem hmem
  have hsame := hsole { s with paramsDigest := s.paramsDigest ++ '\n' :: before, runId := after } prior hmark hprior
    (by simp [message, hsplit])
  have hrun : after = s.runId := congrArg Signed.runId hsame
  have hlength := congrArg List.length (hrun.trans hsplit)
  simp only [length_append, length_cons] at hlength
  omega

theorem Signed.SoleReading.oneOption : SoleOption s.optional all := by
  have hother : ∀ optional : OptionalField → Option Text,
      optionText optional all = optionText s.optional all → optional = s.optional := by
    intro optional hsame
    have heq := hsole { s with optional := optional } prior hmark hprior (by simp only [message, hsame])
    exact congrArg Signed.optional heq
  refine pairwise_iff_forall_sublist.mpr fun {field later} hsublist value hvalue => ?_
  obtain ⟨first, second, hall, hfield, hlater⟩ := cons_sublist_iff.mp hsublist
  obtain ⟨before, middle, rfl⟩ := append_of_mem hfield
  have hmem : later ∈ middle ++ second := mem_append_right _ (singleton_sublist.mp hlater)
  rw [append_assoc, cons_append] at hall
  generalize middle ++ second = after at hall hmem
  have hnodup : (before ++ field :: after).Nodup := hall ▸ all_nodup
  obtain ⟨-, hafter, hapart⟩ := nodup_append.mp hnodup
  obtain ⟨hfresh, hafter⟩ := nodup_cons.mp hafter
  have hnotBefore : later ∉ before := fun hbefore => hapart later hbefore later (mem_cons_of_mem _ hmem) rfl
  have hfieldBefore : field ∉ before := fun hbefore => hapart field hbefore field mem_cons_self rfl
  have hne : later ≠ field := fun heq => hfresh (heq ▸ hmem)
  constructor
  · have hsame := hother
      (replaceFrom s.optional before field (value ++ optionText s.optional after) fun _ => none) (by
        rw [hall, optionText_replaceFrom _ hnodup, optionText_of_none fun _ _ => rfl, optionText_split _ hvalue,
          append_nil])
    have hset := congrFun hsame later
    rw [replaceFrom, if_neg hnotBefore, if_neg hne] at hset
    exact hset.symm
  · rintro ⟨first, text, hsplit⟩
    have hsame := hother
      (replaceFrom s.optional before field first fun other =>
        if other = later then some (text ++ optionText s.optional after) else none) (by
        rw [hall, optionText_replaceFrom _ hnodup, optionText_single hafter hmem, optionText_split _ hvalue, ← hsplit]
        simp only [append_assoc])
    have hset := congrFun hsame field
    rw [replaceFrom, if_neg hfieldBefore, if_pos rfl, hvalue, Option.some.injEq] at hset
    have hlength := congrArg List.length (hset.trans hsplit.symm)
    simp [OptionalField.start] at hlength

omit hprior hmark in
theorem Signed.SoleReading.noRow (field : OptionalField) (value : Text) (hvalue : s.optional field = some value) :
    ¬ HoldsRow Number marks value := by
  rintro ⟨number, first, text, mark, hheld, hsplit, hends⟩
  obtain ⟨before, after, hall⟩ := append_of_mem field.mem_all
  have hnodup : (before ++ field :: after).Nodup := hall ▸ all_nodup
  -- what the forged row keeps as optional fields
  have hkept : ∃ optional, optionText optional all = text ++ optionText s.optional after := by
    rcases hends with rfl | ⟨later, rest, rfl⟩
    · refine ⟨fun other => if other ∈ after then s.optional other else none, ?_⟩
      obtain ⟨-, hafter, hapart⟩ := nodup_append.mp hnodup
      obtain ⟨hfresh, -⟩ := nodup_cons.mp hafter
      have hbefore : optionText (fun other => if other ∈ after then s.optional other else none) before = [] :=
        optionText_of_none fun other hother =>
          if_neg fun hmem => hapart other hother other (mem_cons_of_mem _ hmem) rfl
      rw [hall, optionText_append, hbefore, optionText_cons_none (if_neg hfresh),
        optionText_congr fun other hother => if_pos hother]
    · refine ⟨fun other => if other = later then some (rest ++ optionText s.optional after) else none, ?_⟩
      rw [optionText_single all_nodup later.mem_all, append_assoc]
  obtain ⟨optional, hoptional⟩ := hkept
  let forged : Signed Number :=
    { s with
      runId := s.runId ++ '\n' :: ((PyNumber.repr s.timestamp).text ++ '\n' ::
        (s.priorHmac ++ (optionText s.optional before ++ (field.start ++ first))))
      timestamp := number
      priorHmac := mark.text
      optional := optional }
  have hwhole : optionText s.optional all =
      optionText s.optional before ++ (field.start ++ (value ++ optionText s.optional after)) := by
    rw [hall, optionText_split _ hvalue]
  have hmessage : forged.message = s.message := by
    simp only [message, forged, hoptional, hwhole, hsplit, append_assoc, cons_append]
  have hrun : forged.runId = s.runId := congrArg Signed.runId (hsole forged mark hheld rfl hmessage)
  have hlength := congrArg List.length hrun
  simp [forged] at hlength

end

theorem Signed.soleReading_iff (hdigest : '\n' ∉ s.paramsDigest) (hprior : s.priorHmac = prior.text)
    (hmark : prior ∈ marks) : s.SoleReading marks ↔ s.Unequivocal marks := by
  constructor
  · intro hsole
    exact ⟨hsole.named hprior hmark,
      ⟨hsole.method_line hprior hmark, hsole.toolName_line hprior hmark, hsole.runId_line hprior hmark⟩,
      hsole.oneOption hprior hmark, hsole.noRow⟩
  · intro hs forged mark hmem hnames hsame
    exact hs.eq_of_message_eq hdigest hprior hmem hnames hsame

end RalphWorkflow.Mcp.WireLedger
