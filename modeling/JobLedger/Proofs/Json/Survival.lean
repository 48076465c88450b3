import JobLedger.Proofs.Frame
import JobLedger.Proofs.Json.Records

/-!
# Every record survives its JSON form

Whatever a record of the ledger holds, it is read back from its compact JSON text, and from the frame
of that text where this is short enough for one. Strings may hold any characters, numbers any value
of their width, octets anything, and optional fields may be absent. The counts of a purge are the one
field that a record here holds without a bound; they are read back if they fit in 64 bits.
-/

namespace JobLedger

open Json Text

/-- A value is read back from its JSON text, and from its blob if the text is short enough for it. -/
def SurvivesJson {α : Type} [JsonForm α] (value : α) : Prop :=
  ∃ payload, (Codec.json α).encode value = .ok payload ∧
    (Codec.json α).decode payload = .ok value ∧
      (payload.length < UInt32.size →
        ∃ blob, (Codec.json α).encodeBlob value = .ok blob ∧
          (Codec.json α).decodeBlob blob = .ok value)

/-- A value that is read back from its form survives. -/
theorem ReadsBack.survivesJson {α : Type} [JsonForm α] {value : α} (h : ReadsBack value) :
    SurvivesJson value := by
  have hread : (Codec.json α).decode (Codec.jsonOctets value) = .ok value := by
    simp only [Codec.json, Codec.ofJsonOctets?_jsonOctets h]
  refine ⟨Codec.jsonOctets value, rfl, hread, fun hshort => ?_⟩
  have hfits : Frame.Fits (some (Codec.jsonOctets value)) := hshort
  refine ⟨_, Frame.encode_of_fits hfits, ?_⟩
  rw [Codec.decodeBlob, Frame.decode_framed hfits]
  exact hread

theorem survivesJson_of_lawful {α : Type} [JsonForm α] [LawfulForm α] (value : α) :
    SurvivesJson value :=
  (LawfulForm.readsBack value).survivesJson

/-! ## Records of the history -/

namespace JobInstance

/-- The members of the form of an instance. -/
def members (i : JobInstance) : List (String × Value) :=
  [("id", toJson i.id), ("name", toJson i.name), ("app_tag", toJson i.appTag),
    ("job_definition", toJson i.definition)]

/-- An instance is read field by field. -/
theorem ofJson?_of_columns {value : Value} {a b c d : Option Value}
    (h : value.columns? fields = some [a, b, c, d]) :
    ofJson? value = (do
      some (JobInstance.mk (← required a) (← required b) (← required c) (← omissible d))) := by
  change (value.columns? fields).bind _ = _
  rw [h]
  rfl

end JobInstance

instance : LawfulForm JobInstance := by
  refine .of_members JobInstance.fields JobInstance.members (fun _ => rfl) (fun _ => rfl)
    (by simp [JobInstance.fields]) (fun i => ?_) fun i value hcolumns => ?_
  · simp [JobInstance.members, plain_toJson, plain_option]
  · rw [JobInstance.ofJson?_of_columns hcolumns]
    simp only [required_toJson, omissible_toJson, Option.bind_eq_bind, Option.bind_some]

namespace JobExecution

/-- The members of the form of an execution. -/
def members (e : JobExecution) : List (String × Value) :=
  [("id", toJson e.id), ("job_instance_id", toJson e.instanceId), ("job_name", toJson e.jobName),
    ("create_time", toJson e.createTime), ("start_time", toJson e.startTime),
    ("end_time", toJson e.endTime), ("last_update_time", toJson e.updateTime),
    ("batch_status", toJson e.status), ("exit_status", toJson e.exitStatus),
    ("parameters", toJson e.parameters)]

/-- An execution is read field by field. -/
theorem ofJson?_of_columns {value : Value} {a b c d e f g h i j : Option Value}
    (hcolumns : value.columns? fields = some [a, b, c, d, e, f, g, h, i, j]) :
    ofJson? value = (do
      some (JobExecution.mk (← required a) (← required b) (← required c) (← required d)
        (← omissible e) (← omissible f) (← required g) (← required h) (← omissible i)
        (← required j))) := by
  change (value.columns? fields).bind _ = _
  rw [hcolumns]
  rfl

end JobExecution

instance : LawfulForm JobExecution := by
  refine .of_members JobExecution.fields JobExecution.members (fun _ => rfl) (fun _ => rfl)
    (by simp [JobExecution.fields]) (fun e => ?_) fun e value hcolumns => ?_
  · simp [JobExecution.members, plain_toJson, plain_option]
  · rw [JobExecution.ofJson?_of_columns hcolumns]
    simp only [required_toJson, omissible_toJson, Option.bind_eq_bind, Option.bind_some]

/-- The members of the form of counts, each under the name of what it counts. -/
def StepMetrics.members (m : StepMetrics) : List (String × Value) :=
  StepMetrics.fields.zip (m.toList.map toJson)

instance : LawfulForm StepMetrics := by
  refine .of_members StepMetrics.fields StepMetrics.members (fun _ => rfl) (fun _ => rfl)
    (by simp [StepMetrics.fields]) (fun m => ?_) fun m value hcolumns => ?_
  · simp [StepMetrics.members, StepMetrics.fields, Counters.toList, plain_toJson]
  · have hvalues : (StepMetrics.members m).map (fun member => some member.2) =
        m.toList.map fun count => some (toJson count) := rfl
    have hcounts : (m.toList.map fun count => some (toJson count)).mapM required =
        some (m.toList.map id) :=
      mapM_map_pure fun count _ => required_toJson count
    change (value.columns? StepMetrics.fields).bind
      (fun columns => (columns.mapM required).bind Counters.ofList?) = _
    rw [hcolumns, Option.bind_some, hvalues, hcounts, Option.bind_some, List.map_id,
      Counters.ofList?_toList]

namespace StepExecution

/-- The members of the form of a step execution. -/
def members (s : StepExecution) : List (String × Value) :=
  [("id", toJson s.id), ("job_execution_id", toJson s.executionId),
    ("step_name", toJson s.stepName), ("batch_status", toJson s.status),
    ("exit_status", toJson s.exitStatus), ("metrics", toJson s.metrics),
    ("start_time", toJson s.startTime), ("end_time", toJson s.endTime),
    ("persistent_user_data", toJson s.userData)]

/-- A step execution is read field by field. -/
theorem ofJson?_of_columns {value : Value} {a b c d e f g h i : Option Value}
    (hcolumns : value.columns? fields = some [a, b, c, d, e, f, g, h, i]) :
    ofJson? value = (do
      some (StepExecution.mk (← required a) (← required b) (← required c) (← required d)
        (← omissible e) (← required f) (← required g) (← omissible h) (← omissible i))) := by
  change (value.columns? fields).bind _ = _
  rw [hcolumns]
  rfl

end StepExecution

instance : LawfulForm StepExecution := by
  refine .of_members StepExecution.fields StepExecution.members (fun _ => rfl) (fun _ => rfl)
    (by simp [StepExecution.fields]) (fun s => ?_) fun s value hcolumns => ?_
  · simp [StepExecution.members, plain_toJson, plain_option]
  · rw [StepExecution.ofJson?_of_columns hcolumns]
    simp only [required_toJson, omissible_toJson, Option.bind_eq_bind, Option.bind_some]

/-! ## Tokens and names -/

namespace CheckpointPair

/-- The members of the form of a pair of tokens. -/
def members (p : CheckpointPair) : List (String × Value) :=
  [("reader", toJson p.reader), ("writer", toJson p.writer)]

/-- A pair of tokens is read field by field. -/
theorem ofJson?_of_columns {value : Value} {a b : Option Value}
    (h : value.columns? fields = some [a, b]) :
    ofJson? value = (do some (CheckpointPair.mk (← omissible a) (← omissible b))) := by
  change (value.columns? fields).bind _ = _
  rw [h]
  rfl

end CheckpointPair

instance : LawfulForm CheckpointPair := by
  refine .of_members CheckpointPair.fields CheckpointPair.members (fun _ => rfl) (fun _ => rfl)
    (by simp [CheckpointPair.fields]) (fun p => ?_) fun p value hcolumns => ?_
  · simp [CheckpointPair.members, plain_option]
  · rw [CheckpointPair.ofJson?_of_columns hcolumns]
    simp only [omissible_toJson, Option.bind_eq_bind, Option.bind_some]

namespace PartitionName

/-- The members of the form of a partition name. -/
def members (n : PartitionName) : List (String × Value) :=
  [("root", toJson n.root), ("step_name", toJson n.stepName), ("index", toJson n.index)]

/-- A partition name is read field by field. -/
theorem ofJson?_of_columns {value : Value} {a b c : Option Value}
    (h : value.columns? fields = some [a, b, c]) :
    ofJson? value =
      (do some (PartitionName.mk (← required a) (← required b) (← required c))) := by
  change (value.columns? fields).bind _ = _
  rw [h]
  rfl

end PartitionName

instance : LawfulForm PartitionName := by
  refine .of_members PartitionName.fields PartitionName.members (fun _ => rfl) (fun _ => rfl)
    (by simp [PartitionName.fields]) (fun n => ?_) fun n value hcolumns => ?_
  · simp [PartitionName.members, plain_toJson]
  · rw [PartitionName.ofJson?_of_columns hcolumns]
    simp only [required_toJson, Option.bind_eq_bind, Option.bind_some]

/-! ## Counts of a purge -/

/-- A count that fits in 64 bits is read back. -/
theorem Json.required_count {n : Nat} (h : n < UInt64.size) :
    required (some (toJson n)) = some n := by
  have hread : (ofJson? (toJson n) : Option Nat) = natBelow? UInt64.size (.int n) := rfl
  rw [required, hread, natBelow?_int h]

namespace PurgeSummary

/-- The counts of a purge fit in 64 bits. -/
structure FitsWords (s : PurgeSummary) : Prop where
  instances : s.instances < UInt64.size
  executions : s.executions < UInt64.size
  steps : s.steps < UInt64.size
  jobStatuses : s.jobStatuses < UInt64.size
  stepStatuses : s.stepStatuses < UInt64.size
  checkpoints : s.checkpoints < UInt64.size

/-- The members of the form of the counts of a purge. -/
def members (s : PurgeSummary) : List (String × Value) :=
  [("job_instances", toJson s.instances), ("job_executions", toJson s.executions),
    ("step_executions", toJson s.steps), ("job_statuses", toJson s.jobStatuses),
    ("step_statuses", toJson s.stepStatuses), ("checkpoints", toJson s.checkpoints)]

/-- The counts of a purge are read field by field. -/
theorem ofJson?_of_columns {value : Value} {a b c d e f : Option Value}
    (h : value.columns? fields = some [a, b, c, d, e, f]) :
    ofJson? value = (do
      some (PurgeSummary.mk (← required a) (← required b) (← required c) (← required d)
        (← required e) (← required f))) := by
  change (value.columns? fields).bind _ = _
  rw [h]
  rfl

theorem readsBack {s : PurgeSummary} (h : s.FitsWords) : ReadsBack s := by
  have hform : toJson s = .object s.members := rfl
  have hdistinct : PurgeSummary.fields.Nodup := by simp [PurgeSummary.fields]
  refine .of_members hform rfl hdistinct ?_ fun value hcolumns => ?_
  · simp [members, toJson, Value.Plain]
  · rw [ofJson?_of_columns hcolumns]
    simp only [required_count h.instances, required_count h.executions, required_count h.steps,
      required_count h.jobStatuses, required_count h.stepStatuses, required_count h.checkpoints,
      Option.bind_eq_bind, Option.bind_some]

end PurgeSummary

/-- Every record of the ledger is read back from what it is written as. -/
theorem survivesJson_everyRecord :
    (∀ i : JobInstance, SurvivesJson i) ∧ (∀ p : JobParameters, SurvivesJson p) ∧
      (∀ e : JobExecution, SurvivesJson e) ∧ (∀ m : StepMetrics, SurvivesJson m) ∧
      (∀ s : StepExecution, SurvivesJson s) ∧ (∀ s : JobStatus, SurvivesJson s) ∧
      (∀ s : StepStatus, SurvivesJson s) ∧ (∀ p : CheckpointPair, SurvivesJson p) ∧
      (∀ n : PartitionName, SurvivesJson n) ∧
        ∀ s : PurgeSummary, s.FitsWords → SurvivesJson s :=
  ⟨survivesJson_of_lawful, survivesJson_of_lawful, survivesJson_of_lawful, survivesJson_of_lawful,
    survivesJson_of_lawful, survivesJson_of_lawful, survivesJson_of_lawful, survivesJson_of_lawful,
    survivesJson_of_lawful, fun _ h => (PurgeSummary.readsBack h).survivesJson⟩

/-- The greatest counts survive. -/
theorem survivesJson_greatestCounts :
    let greatest := UInt64.size - 1
    let s : PurgeSummary := ⟨greatest, greatest, greatest, greatest, greatest, greatest⟩
    s.FitsWords ∧ SurvivesJson s := by
  intro greatest s
  have hcounts : s.FitsWords :=
    ⟨by decide, by decide, by decide, by decide, by decide, by decide⟩
  obtain ⟨-, -, -, -, -, -, -, -, -, hpurge⟩ := survivesJson_everyRecord
  exact ⟨hcounts, hpurge s hcounts⟩

end JobLedger
