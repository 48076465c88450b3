import JobLedger.Codec
import JobLedger.Proofs.Json.Values

/-!
# Records survive their JSON form

A type is lawful when each of its values is read back from its form. The scalars are lawful by their
ranges, a list by its items, and a record by its fields: it is taken from an object that has a member
for each of its fields and no two of one name. From that the JSON codec of a lawful type is lawful.
-/

namespace JobLedger

open Json Text

/-- Every value of a type is read back from its form, which has no part that is `other` and is not
null, so that it can stand for the value of an optional field. -/
class LawfulForm (α : Type) [JsonForm α] : Prop where
  /-- The value is read back. -/
  ofJson?_toJson (a : α) : ofJson? (toJson a) = some a
  /-- The form can be written. -/
  plain_toJson (a : α) : (toJson a).Plain
  /-- The form is not that of an absent value. -/
  toJson_ne_null (a : α) : toJson a ≠ .null

export LawfulForm (ofJson?_toJson plain_toJson toJson_ne_null)

namespace Json

/-- A natural number below a bound is read back. -/
theorem natBelow?_int {bound n : Nat} (h : n < bound) : natBelow? bound (.int n) = some n := by
  have hrange : 0 ≤ (n : Int) ∧ (n : Int) < bound := by omega
  rw [natBelow?, if_pos hrange, Int.toNat_natCast]

end Json

instance : LawfulForm String where
  ofJson?_toJson _ := rfl
  plain_toJson _ := by simp [toJson, Value.Plain]
  toJson_ne_null _ := by simp [toJson]

instance : LawfulForm UInt64 where
  ofJson?_toJson n := by simp [ofJson?, toJson, natBelow?_int n.toNat_lt]
  plain_toJson _ := by simp [toJson, Value.Plain]
  toJson_ne_null _ := by simp [toJson]

instance : LawfulForm UInt32 where
  ofJson?_toJson n := by simp [ofJson?, toJson, natBelow?_int n.toNat_lt]
  plain_toJson _ := by simp [toJson, Value.Plain]
  toJson_ne_null _ := by simp [toJson]

instance : LawfulForm UInt8 where
  ofJson?_toJson n := by simp [ofJson?, toJson, natBelow?_int n.toNat_lt]
  plain_toJson _ := by simp [toJson, Value.Plain]
  toJson_ne_null _ := by simp [toJson]

instance {entity : Entity} : LawfulForm (Id entity) where
  ofJson?_toJson id := by simp [ofJson?, toJson, natBelow?_int id.lt, Id.ofNat?_number]
  plain_toJson _ := by simp [toJson, Value.Plain]
  toJson_ne_null _ := by simp [toJson]

instance : LawfulForm Timestamp where
  ofJson?_toJson t := by simp [ofJson?, toJson, Timestamp.ofMillis?, int64?_toInt]
  plain_toJson _ := by simp [toJson, Value.Plain]
  toJson_ne_null _ := by simp [toJson]

instance : LawfulForm BatchStatus where
  ofJson?_toJson status := by simp [ofJson?, toJson, label?, BatchStatus.ofLabel?_label]
  plain_toJson _ := by simp [toJson, Value.Plain]
  toJson_ne_null _ := by simp [toJson]

namespace Json

/-- Items with lawful forms are read back one by one. -/
theorem mapM_ofJson? {α : Type} [JsonForm α] [LawfulForm α] (items : List α) :
    (items.map toJson).mapM (ofJson? (α := α)) = some items := by
  have hread : (items.map toJson).mapM (ofJson? (α := α)) = some (items.map id) :=
    mapM_map_pure fun item _ => ofJson?_toJson item
  rw [hread, List.map_id]

/-- Items that have forms of their own are plain. -/
theorem plainItems_map {α : Type} [JsonForm α] [LawfulForm α] (items : List α) :
    Value.PlainItems (items.map toJson) := by
  induction items with
  | nil => rw [List.map_nil, Value.PlainItems]; trivial
  | cons item items ih => exact ⟨plain_toJson item, ih⟩

end Json

instance {α : Type} [JsonForm α] [LawfulForm α] : LawfulForm (List α) where
  ofJson?_toJson items := mapM_ofJson? items
  plain_toJson items := by
    simp only [toJson, Value.Plain]
    exact plainItems_map items
  toJson_ne_null _ := by simp [toJson]

namespace Json

variable {α : Type} [JsonForm α] [LawfulForm α]

/-- A member that is there is read from its form. -/
@[simp] theorem required_toJson (a : α) : required (some (toJson a)) = some a :=
  ofJson?_toJson a

/-- A field that may be absent is read back. -/
@[simp] theorem omissible_toJson (value : Option α) :
    omissible (some (toJson value)) = some value := by
  cases value with
  | none => rfl
  | some a =>
    have hform : (toJson (some a) : Value) = toJson a := rfl
    have hread : (ofJson? (toJson a) : Option (Option α)) = (ofJson? (toJson a)).map some := by
      cases hv : toJson a with
      | null => exact absurd hv (toJson_ne_null a)
      | _ => rfl
    rw [omissible, hform, hread, ofJson?_toJson, Option.map_some]

/-- What may be missing has a form of its own. -/
theorem plain_option (value : Option α) : (toJson value).Plain := by
  cases value with
  | none => simp [toJson, Value.Plain]
  | some a => exact plain_toJson a

/-- An object of values that can be written can be written. -/
theorem plain_object {members : List (String × Value)}
    (h : ∀ member ∈ members, member.2.Plain) : (Value.object members).Plain := by
  rw [Value.Plain]
  induction members with
  | nil => rw [Value.PlainMembers]; trivial
  | cons member members ih =>
    rw [Value.PlainMembers, Value.PlainMember]
    have hrest := ih fun other hother => h other (List.mem_cons_of_mem _ hother)
    exact ⟨h member List.mem_cons_self, hrest⟩

/-- Of members with different names each is the only one of its name. -/
theorem filter_name_eq {members : List (String × Value)}
    (hnames : members.Pairwise fun a b => a.1 ≠ b.1) {member : String × Value}
    (hmem : member ∈ members) :
    (members.filter fun other => other.1 = member.1) = [member] := by
  induction members with
  | nil => simp at hmem
  | cons first members ih =>
    obtain ⟨hfirst, hrest⟩ := List.pairwise_cons.mp hnames
    rcases List.mem_cons.mp hmem with rfl | hmem
    · have hothers : (members.filter fun other => other.1 = member.1) = [] := by
        simp only [List.filter_eq_nil_iff, decide_eq_true_eq]
        exact fun other hother heq => hfirst other hother heq.symm
      simp [hothers]
    · have hne : first.1 ≠ member.1 := hfirst member hmem
      simp [hne, ih hrest hmem]

/-- A record takes from an object the members of its fields. -/
theorem columns?_object {members : List (String × Value)}
    (hnames : members.Pairwise fun a b => a.1 ≠ b.1) :
    (Value.object members).columns? (members.map Prod.fst) =
      some (members.map fun member => some member.2) := by
  rw [Value.columns?]
  exact mapM_map_pure fun member hmem => by rw [filter_name_eq hnames hmem]; rfl

end Json

/-- A value is read back from its form, and the form can be written. -/
structure ReadsBack {α : Type} [JsonForm α] (a : α) : Prop where
  ofJson?_toJson : ofJson? (toJson a) = some a
  plain_toJson : (toJson a).Plain

section Record

variable {α : Type} [JsonForm α]

/-- A record is read back if it is written as an object with a member for each field, and is read
from the values of these. -/
theorem ReadsBack.of_members {fields : List String} {a : α} {members : List (String × Value)}
    (hform : toJson a = .object members) (hfields : members.map Prod.fst = fields)
    (hdistinct : fields.Nodup) (hplain : ∀ member ∈ members, member.2.Plain)
    (hread : ∀ value : Value,
      value.columns? fields = some (members.map fun member => some member.2) →
        ofJson? value = some a) : ReadsBack a where
  ofJson?_toJson := by
    rw [← hfields] at hdistinct hread
    rw [hform]
    exact hread _ (columns?_object (List.pairwise_map.mp hdistinct))
  plain_toJson := hform ▸ plain_object hplain

/-- A type of records is lawful if each record is read from the values of its fields. -/
theorem LawfulForm.of_members (fields : List String) (members : α → List (String × Value))
    (hform : ∀ a, toJson a = .object (members a))
    (hfields : ∀ a, (members a).map Prod.fst = fields) (hdistinct : fields.Nodup)
    (hplain : ∀ a, ∀ member ∈ members a, member.2.Plain)
    (hread : ∀ (a : α) (value : Value),
      value.columns? fields = some ((members a).map fun member => some member.2) →
        ofJson? value = some a) : LawfulForm α :=
  have hback (a : α) : ReadsBack a :=
    .of_members (hform a) (hfields a) hdistinct (hplain a) (hread a)
  { ofJson?_toJson := fun a => (hback a).ofJson?_toJson
    plain_toJson := fun a => (hback a).plain_toJson
    toJson_ne_null := fun a => by
      rw [hform a]
      exact Value.noConfusion }

end Record

namespace JobParameters

/-- Members that are texts are plain. -/
theorem plainMembers_entries (entries : List (String × String)) :
    Value.PlainMembers (entries.map fun entry => (entry.1, .text entry.2)) := by
  induction entries with
  | nil => rw [List.map_nil, Value.PlainMembers]; trivial
  | cons entry entries ih =>
    refine ⟨?_, ih⟩
    simp [Value.PlainMember, Value.Plain]

/-- The members that entries are written as are read back. -/
theorem mapM_entries (entries : List (String × String)) :
    (entries.map fun entry => (entry.1, Value.text entry.2)).mapM
      (fun member => (ofJson? member.2).map fun value => (member.1, value)) = some entries := by
  have hread : (entries.map fun entry => (entry.1, Value.text entry.2)).mapM
      (fun member => (ofJson? member.2).map fun value => (member.1, value)) =
        some (entries.map id) :=
    mapM_map_pure fun _ _ => rfl
  rw [hread, List.map_id]

end JobParameters

instance : LawfulForm JobParameters where
  ofJson?_toJson p := by
    change Option.map JobParameters.ofList _ = _
    rw [JobParameters.mapM_entries, Option.map_some, JobParameters.ofList_entries]
  plain_toJson p := by
    simp only [toJson, Value.Plain]
    exact JobParameters.plainMembers_entries p.entries
  toJson_ne_null _ := by simp [toJson]

namespace JobStatus

/-- The members of the form of a job status. -/
def members (s : JobStatus) : List (String × Value) :=
  [("job_instance_id", toJson s.instanceId), ("current_step", toJson s.currentStep),
    ("batch_status", toJson s.status), ("exit_status", toJson s.exitStatus),
    ("latest_execution_id", toJson s.latestExecution), ("restart_on", toJson s.restartOn)]

/-- A job status is read field by field. -/
theorem ofJson?_of_columns {value : Value} {a b c d e f : Option Value}
    (h : value.columns? fields = some [a, b, c, d, e, f]) :
    ofJson? value = (do
      some (JobStatus.mk (← required a) (← omissible b) (← required c) (← omissible d)
        (← omissible e) (← omissible f))) := by
  change (value.columns? fields).bind _ = _
  rw [h]
  rfl

end JobStatus

instance : LawfulForm JobStatus := by
  refine .of_members JobStatus.fields JobStatus.members (fun _ => rfl) (fun _ => rfl)
    (by simp [JobStatus.fields]) (fun s => ?_) fun s value hcolumns => ?_
  · simp [JobStatus.members, plain_toJson, plain_option]
  · rw [JobStatus.ofJson?_of_columns hcolumns]
    simp only [required_toJson, omissible_toJson, Option.bind_eq_bind, Option.bind_some]

namespace StepStatus

/-- The members of the form of a step status. -/
def members (s : StepStatus) : List (String × Value) :=
  [("status_id", toJson s.statusId), ("step_execution_id", toJson s.stepId),
    ("last_run_step_execution_id", toJson s.lastRunStep), ("batch_status", toJson s.status),
    ("exit_status", toJson s.exitStatus), ("start_count", toJson s.startCount),
    ("persistent_user_data", toJson s.userData), ("num_partitions", toJson s.partitions)]

/-- A step status is read field by field. -/
theorem ofJson?_of_columns {value : Value} {a b c d e f g h : Option Value}
    (hcolumns : value.columns? fields = some [a, b, c, d, e, f, g, h]) :
    ofJson? value = (do
      some (StepStatus.mk (← required a) (← required b) (← omissible c) (← required d)
        (← omissible e) (← required f) (← omissible g) (← omissible h))) := by
  change (value.columns? fields).bind _ = _
  rw [hcolumns]
  rfl

end StepStatus

instance : LawfulForm StepStatus := by
  refine .of_members StepStatus.fields StepStatus.members (fun _ => rfl) (fun _ => rfl)
    (by simp [StepStatus.fields]) (fun s => ?_) fun s value hcolumns => ?_
  · simp [StepStatus.members, plain_toJson, plain_option]
  · rw [StepStatus.ofJson?_of_columns hcolumns]
    simp only [required_toJson, omissible_toJson, Option.bind_eq_bind, Option.bind_some]

/-- A lawful form is read back as what it is the form of. -/
theorem LawfulForm.readsBack {α : Type} [JsonForm α] [LawfulForm α] (a : α) : ReadsBack a :=
  ⟨LawfulForm.ofJson?_toJson a, LawfulForm.plain_toJson a⟩

namespace Codec

variable {α : Type} [JsonForm α]

/-- The JSON text of a value is read back. -/
theorem ofJsonOctets?_jsonOctets {value : α} (h : ReadsBack value) :
    ofJsonOctets? (jsonOctets value) = some value := by
  rw [ofJsonOctets?, jsonOctets, read?_octets h.plain_toJson, Option.bind_some, h.ofJson?_toJson]

/-- The JSON codec of a lawful type reads back each value that it writes. -/
theorem lawful_json [LawfulForm α] : (json α).Lawful := by
  intro value source h
  obtain rfl : jsonOctets value = source := Except.ok.inj h
  simp only [json, ofJsonOctets?_jsonOctets (LawfulForm.readsBack value)]

end Codec

end JobLedger
