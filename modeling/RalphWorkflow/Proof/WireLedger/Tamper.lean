import RalphWorkflow.Proof.WireLedger.Forgery

/-! When the rows `verify_chain` accepts, their HMACs all coming from the ledger's own appends, are the records that were
appended. -/
namespace RalphWorkflow.Mcp.WireLedger
open Lib List
open Lib.Json (Text Value)

variable {Number : Type} [PyNumber Number] {mac : Mac} {records : List (WireLedgerRecord Number)}
  {record : WireLedgerRecord Number} {rows : List (Row Number)} {frames : List (Frame Number)}

def Produced (records : List (WireLedgerRecord Number)) (rows : List (Row Number)) : Prop :=
  ∀ row ∈ rows, ∃ record ∈ records, row .hmac = .str record.recordHmac

/-- The accepted rows are, in every field, the first of the appended ones. -/
def TamperEvident (mac : Mac) (records : List (WireLedgerRecord Number)) : Prop :=
  ∀ rows, verifyChain mac rows = true → Produced records rows → rows <+: records.map (·.row)

/-- The same as `verify_chain` reads the fields. -/
def TamperEvidentRead (mac : Mac) (records : List (WireLedgerRecord Number)) : Prop :=
  ∀ rows, verifyChain mac rows = true → Produced records rows → rows.map Row.record? <+: records.map some

/-! ## Where every record is unequivocal -/

theorem Made.eq_of_hmac_eq {other : WireLedgerRecord Number} (hmade : Made mac records)
    (hrecord : record ∈ records) (hs : record.Unequivocal (marks mac records)) (hsealed : other.Sealed mac)
    (hprior : other.priorHmac ∈ genesisHmac.text :: records.map (·.recordHmac))
    (hsame : other.recordHmac = record.recordHmac) : other = record := by
  obtain ⟨digest, hdigest⟩ := hmade.digest record hrecord
  obtain ⟨prior, -, hnames⟩ := hmade.exists_mark (hmade.chained.prior_mem hrecord)
  obtain ⟨mark, hmark, hmarkText⟩ := hmade.exists_mark hprior
  have hmessage : other.message = record.message := hsealed.message_eq (hmade.sealed record hrecord) hsame
  have hsigned := hs.eq_of_message_eq (hdigest ▸ digest.not_mem) hnames hmark hmarkText hmessage
  cases other
  cases record
  cases hsigned
  cases hsame
  rfl

theorem Made.tamperEvidentRead (hmade : Made mac records)
    (hall : ∀ record ∈ records, record.Unequivocal (marks mac records)) : TamperEvidentRead mac records := by
  intro rows hverified hproduced
  obtain ⟨accepted, hreads, hchained, hsealed⟩ := verifyRows_iff.mp hverified
  have hhmac : ∀ record ∈ accepted, ∃ own ∈ records, record.recordHmac = own.recordHmac := by
    intro record hrecord
    have hmem : some record ∈ rows.map Row.record? := hreads ▸ mem_map_of_mem hrecord
    obtain ⟨row, hrow, hread⟩ := mem_map.mp hmem
    obtain ⟨own, hown, hstr⟩ := hproduced row hrow
    rw [Row.hmac_of_record? hread] at hstr
    exact ⟨own, hown, Value.str.inj hstr⟩
  have hfrom : ∀ record ∈ accepted, record ∈ records := by
    intro record hrecord
    obtain ⟨own, hown, hsame⟩ := hhmac record hrecord
    -- the mark an accepted row names is the genesis or that of another accepted row, hence an appended one
    have hprior : record.priorHmac ∈ genesisHmac.text :: records.map (·.recordHmac) := by
      rcases mem_cons.mp (hchained.prior_mem hrecord) with hgenesis | hearlier
      · exact mem_cons.mpr (.inl hgenesis)
      · obtain ⟨earlier, hmem, hmark⟩ := mem_map.mp hearlier
        obtain ⟨own, hown, hsame⟩ := hhmac earlier hmem
        exact mem_cons_of_mem _ (mem_map.mpr ⟨own, hown, hsame.symm.trans hmark⟩)
    exact hmade.eq_of_hmac_eq hown (hall own hown) (hsealed record hrecord) hprior hsame ▸ hown
  have hbinds : ∀ one ∈ records, ∀ other ∈ records, one.recordHmac = other.recordHmac → one.priorHmac = other.priorHmac := by
    intro one hone other hother hsame
    rw [hmade.eq_of_hmac_eq hother (hall other hother) (hmade.sealed one hone) (hmade.chained.prior_mem hone) hsame]
  have hprefix := hmade.chained.isPrefix (fun record hrecord => (hmade.sealed record hrecord).ne_genesis) hbinds
    hchained hfrom
  rw [hreads]
  exact hprefix.map some

/-! ## Where one is not -/

theorem TamperEvidentRead.isPrefix {accepted : List (WireLedgerRecord Number)} (hevident : TamperEvidentRead mac records)
    (hchained : Chained genesisHmac.text accepted) (hsealed : ∀ record ∈ accepted, record.Sealed mac)
    (hproduced : ∀ record ∈ accepted, ∃ own ∈ records, record.recordHmac = own.recordHmac) : accepted <+: records := by
  have hprefix := hevident (accepted.map (·.row)) (verifyChain_row _ hchained hsealed) (by
    intro row hrow
    obtain ⟨record, hrecord, rfl⟩ := mem_map.mp hrow
    obtain ⟨own, hown, hsame⟩ := hproduced record hrecord
    exact ⟨own, hown, congrArg Value.str hsame⟩)
  have hreads : (accepted.map (·.row)).map Row.record? = accepted.map some := by
    rw [map_map]
    exact map_congr_left fun record _ => record.record?_row
  rw [hreads] at hprefix
  exact (prefix_map_iff_of_injective fun _ _ hsome => Option.some.inj hsome).mp hprefix

theorem TamperEvidentRead.nodup (hevident : TamperEvidentRead mac records) (hmade : Made mac records) : (records.map (·.recordHmac)).Nodup := by
  by_contra htwice
  obtain ⟨longer, hchained, hfrom, hlength⟩ := hmade.chained.exists_longer htwice
  have hprefix := hevident.isPrefix hchained (fun record hrecord => hmade.sealed record (hfrom record hrecord))
    (fun record hrecord => ⟨record, hfrom record hrecord, rfl⟩)
  exact absurd hprefix.length_le (Nat.not_le.mpr hlength)

theorem TamperEvidentRead.soleReading (hevident : TamperEvidentRead mac records) (hmade : Made mac records)
    (hrecord : record ∈ records) : record.SoleReading (marks mac records) := by
  intro forged mark hmark hnames hmessage
  have htext : mark.text ∈ genesisHmac.text :: records.map (·.recordHmac) :=
    hmade.marks_text ▸ mem_map_of_mem hmark
  obtain ⟨before, after, hsplit, hlast⟩ := exists_lastMark_eq htext
  let row : WireLedgerRecord Number := { forged with recordHmac := record.recordHmac }
  have hsealed : row.Sealed mac := by
    have hown := hmade.sealed record hrecord
    have hsame : mac.recordHmac row.toSigned = mac.recordHmac record.toSigned :=
      congrArg (fun msg => (mac.hexdigest msg).text) hmessage
    exact hown.trans hsame.symm
  have hbefore : ∀ other ∈ before, other ∈ records := fun other hother => hsplit ▸ mem_append_left _ hother
  have hprefix : before ++ [row] <+: records := by
    refine hevident.isPrefix (linked_append.mpr ⟨(linked_append.mp (hsplit ▸ hmade.chained)).1, ?_, trivial⟩) ?_ ?_
    · exact hnames.trans hlast.symm
    · intro other hother
      rcases mem_append.mp hother with hold | hnew
      · exact hmade.sealed other (hbefore other hold)
      · exact mem_singleton.mp hnew ▸ hsealed
    · intro other hother
      rcases mem_append.mp hother with hold | hnew
      · exact ⟨other, hbefore other hold, rfl⟩
      · exact ⟨record, hrecord, by rw [mem_singleton.mp hnew]⟩
  have hmem : row ∈ records := hprefix.subset (mem_append_right _ (mem_singleton_self row))
  have heq : row = record := inj_on_of_nodup_map (hevident.nodup hmade) hmem hrecord rfl
  exact congrArg WireLedgerRecord.toSigned heq

theorem Made.tamperEvidentRead_iff (hmade : Made mac records) :
    TamperEvidentRead mac records ↔ ∀ record ∈ records, record.Unequivocal (marks mac records) := by
  refine ⟨fun hevident record hrecord => ?_, hmade.tamperEvidentRead⟩
  obtain ⟨digest, hdigest⟩ := hmade.digest record hrecord
  obtain ⟨prior, hmem, hnames⟩ := hmade.exists_mark (hmade.chained.prior_mem hrecord)
  exact (Signed.soleReading_iff (hdigest ▸ digest.not_mem) hnames hmem).mp (hevident.soleReading hmade hrecord)

/-! ## In every field -/

/-- A row accepted and unlike the first record: a field gets a value, or takes in lines of the others. -/
theorem exists_row_ne (hmade : Made mac (record :: records)) :
    ∃ row : Row Number, row ≠ record.row ∧ row .hmac = .str record.recordHmac ∧ verifyChain mac [row] = true := by
  have hchained : Chained genesisHmac.text [record] := ⟨hmade.chained.1, trivial⟩
  have hsealed := hmade.sealed record mem_cons_self
  by_cases habsent : ∃ field, record.optional field = none
  · obtain ⟨field, hfield⟩ := habsent
    let row : Row Number := Function.update record.row (.optional field) .other
    refine ⟨row, ?_, rfl, ?_⟩
    · intro hsame
      have hvalue := congrFun hsame (.optional field)
      simp [row, WireLedgerRecord.row, hfield, Value.ofOption] at hvalue
    · have hread : Row.record? row = Row.record? record.row := by
        have hoptional : (fun other => (row (.optional other)).str?) = fun other => (record.row (.optional other)).str? := by
          funext other
          by_cases hother : other = field
          · subst hother
            simp [row, WireLedgerRecord.row, hfield, Value.ofOption, Value.str?]
          · simp [row, Function.update_of_ne, hother]
        simp only [Row.record?, hoptional]
        rfl
      refine verifyRows_iff.mpr ⟨[record], ?_, hchained, forall_mem_singleton.mpr hsealed⟩
      rw [map_singleton, map_singleton, hread, WireLedgerRecord.record?_row]
  · have hset : ∀ field, ∃ value, record.optional field = some value := by
      intro field
      cases hvalue : record.optional field with
      | none => exact absurd ⟨field, hvalue⟩ habsent
      | some value => exact ⟨value, rfl⟩
    obtain ⟨value, hvalue⟩ := hset .deliveryMode
    obtain ⟨next, hnext⟩ := hset .provider
    let rest : List OptionalField := [.provider, .modelId, .agentId, .capabilityProfileDigest]
    let forged : WireLedgerRecord Number :=
      { record with
        optional := replaceFrom record.optional [] .deliveryMode (value ++ optionText record.optional rest) fun _ => none }
    have hmessage : forged.message = record.message := by
      have htext : optionText forged.optional OptionalField.all = optionText record.optional OptionalField.all := by
        have hnodup : ([] ++ OptionalField.deliveryMode :: rest).Nodup := OptionalField.all_nodup
        have hwhole := optionText_replaceFrom record.optional hnodup (value ++ optionText record.optional rest) fun _ => none
        rw [optionText_of_none fun _ _ => rfl, append_nil] at hwhole
        exact hwhole.trans (optionText_split [] hvalue).symm
      simp only [Signed.message, htext]
      rfl
    have hforged : forged.Sealed mac :=
      hsealed.trans (congrArg (fun msg => (mac.hexdigest msg).text) hmessage.symm)
    refine ⟨forged.row, ?_, rfl, ?_⟩
    · intro hsame
      have hprovider := congrFun hsame (.optional .provider)
      simp [forged, WireLedgerRecord.row, replaceFrom, hnext, Value.ofOption] at hprovider
    · exact verifyChain_row [forged] ⟨hmade.chained.1, trivial⟩ (forall_mem_singleton.mpr hforged)

theorem Made.tamperEvident_iff (hmade : Made mac records) : TamperEvident mac records ↔ records = [] := by
  cases records with
  | nil =>
    refine ⟨fun _ => rfl, fun _ rows _ hproduced => ?_⟩
    cases rows with
    | nil => exact nil_prefix
    | cons row rows =>
      obtain ⟨record, hrecord, -⟩ := hproduced row mem_cons_self
      exact absurd hrecord not_mem_nil
  | cons record records =>
    refine ⟨fun hevident => ?_, fun hnil => absurd hnil (cons_ne_nil _ _)⟩
    obtain ⟨row, hne, hhmac, hverified⟩ := exists_row_ne hmade
    have hprefix := hevident [row] hverified
      (forall_mem_singleton.mpr ⟨record, mem_cons_self, hhmac⟩)
    exact absurd (cons_prefix_cons.mp hprefix).1 hne

/-- Rows are evident only where nothing was appended, or, as `verify_chain` reads, every record is unequivocal. -/
theorem tamperEvident_appended_iff (mac : Mac) (frames : List (Frame Number)) : (TamperEvident mac (appended mac frames) ↔ frames = []) ∧
      (TamperEvidentRead mac (appended mac frames) ↔
        ∀ record ∈ appended mac frames, record.Unequivocal (marks mac (appended mac frames))) :=
  ⟨appended_made.tamperEvident_iff.trans appended_eq_nil_iff, appended_made.tamperEvidentRead_iff⟩

/-! ## A row rewritten under its own HMAC -/

def escapedChar (c : Char) : Text := if c = '\n' then ['%', 'n'] else if c = '=' then ['%', 'e'] else ['_', c]

/-- A text on one line and without equals signs, from which the text can be had back. -/
def escaped (text : Text) : Text := text.flatMap escapedChar

theorem escapedChar_length (c : Char) : (escapedChar c).length = 2 := by
  unfold escapedChar
  split_ifs <;> rfl

theorem escapedChar_injective : Function.Injective escapedChar := by
  intro one other hsame
  unfold escapedChar at hsame
  split_ifs at hsame <;> simp_all

theorem escaped_injective : Function.Injective escaped := by
  intro one
  induction one with
  | nil =>
    intro other hsame
    cases other with
    | nil => rfl
    | cons c other =>
      have hlength := congrArg List.length hsame
      simp only [escaped, flatMap_nil, flatMap_cons, length_nil, length_append,
        escapedChar_length] at hlength
      omega
  | cons c one ih =>
    intro other hsame
    cases other with
    | nil =>
      have hlength := congrArg List.length hsame
      simp [escaped, escapedChar_length] at hlength
    | cons c' other =>
      have hparts : escapedChar c ++ escaped one = escapedChar c' ++ escaped other := hsame
      obtain ⟨hfirst, hrest⟩ :=
        append_inj hparts ((escapedChar_length c).trans (escapedChar_length c').symm)
      rw [escapedChar_injective hfirst, ih hrest]

theorem escaped_plain (text : Text) : ∀ c ∈ escaped text, c ≠ '\n' ∧ c ≠ '=' := by
  intro c hc
  obtain ⟨own, -, hmem⟩ := mem_flatMap.mp hc
  unfold escapedChar at hmem
  split_ifs at hmem with hbreak hequals
  · exact (plain_of_all rfl : ∀ c ∈ ['%', 'n'], c ≠ '\n' ∧ c ≠ '=') c hmem
  · exact (plain_of_all rfl : ∀ c ∈ ['%', 'e'], c ≠ '\n' ∧ c ≠ '=') c hmem
  · rcases mem_cons.mp hmem with rfl | hmem
    · decide
    · cases mem_singleton.mp hmem
      exact ⟨hbreak, hequals⟩

def mediaMessage : Text :=
  ("tools/call\nread_media\n3ce1507511f49b82c2f299ddcd67cf28308d0829c9d9d1785afb7ce7fa3a5086\nrun-1\n1700000000.5\n" ++
    "0000000000000000000000000000000000000000000000000000000000000000\ndelivery_mode=inline\nprovider=anthropic").toList

def mediaHmac : Text := "5bd1d2e6745f377a1fa44a9b8878a8f554d30a93db3d6d69d63c21f23373093e".toList

theorem head_mediaHmac : mediaHmac.head? = some '5' := by decide +kernel

/-- A keyed hash with the real value on `mediaMessage`. -/
def sampleMac : Mac where
  hexdigest msg := if msg = mediaMessage then ⟨mediaHmac, plain_of_all rfl⟩ else ⟨'x' :: escaped msg, by
    exact forall_mem_cons.mpr ⟨by decide, escaped_plain msg⟩⟩
  injective := by
    intro one other hsame
    have htext := congrArg Token.text hsame
    dsimp only at htext
    split_ifs at htext with hone hother hother
    · exact hone.trans hother.symm
    · exact absurd (head_mediaHmac.symm.trans (congrArg List.head? htext)) (by simp)
    · exact absurd (head_mediaHmac.symm.trans (congrArg List.head? htext.symm)) (by simp)
    · exact escaped_injective (List.cons.inj htext).2
  ne_genesis := by
    intro msg
    split_ifs
    · decide +kernel
    · exact fun hsame => absurd (congrArg List.head? hsame) (by simp)

inductive Instant where
  | first

instance : PyNumber Instant where
  repr _ := ⟨"1700000000.5".toList, plain_of_all rfl⟩
  repr_injective := fun ⟨⟩ ⟨⟩ _ => rfl

def mediaFrame : Frame Instant where
  method := "tools/call".toList
  toolName := some "read_media".toList
  paramsDigest := ⟨"3ce1507511f49b82c2f299ddcd67cf28308d0829c9d9d1785afb7ce7fa3a5086".toList, plain_of_all rfl⟩
  runId := "run-1".toList
  timestamp := .first
  optional
    | .deliveryMode => some "inline".toList
    | .provider => some "anthropic".toList
    | _ => none

/-- The record of the call with its provider written into its delivery mode. -/
def rewrittenRow : Row Instant :=
  Function.update
    (Function.update (newRecord sampleMac [] mediaFrame).row (.optional .deliveryMode)
      (.str "inline\nprovider=anthropic".toList))
    (.optional .provider) .null

/-- The rewritten row stands under the HMAC of the record it was made from. -/
theorem rewritten_row_accepted : ¬ TamperEvidentRead sampleMac (appended sampleMac [mediaFrame]) := by
  intro hevident
  have hverified : verifyChain sampleMac [rewrittenRow] = true := by decide +kernel
  have hprefix := hevident [rewrittenRow] hverified
    (forall_mem_singleton.mpr ⟨newRecord sampleMac [] mediaFrame, mem_singleton_self _, rfl⟩)
  have hsame := congrArg (Option.map fun record => record.optional .provider) (cons_prefix_cons.mp hprefix).1
  exact absurd hsame (by decide +kernel)

end RalphWorkflow.Mcp.WireLedger
