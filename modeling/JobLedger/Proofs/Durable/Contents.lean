import JobLedger.Proofs.Durable.Holding

/-!
# What cells and rows hold

A cell is read as a value exactly if it holds that value: a text, a number, a moment, or octets that
are the frame of a token or of the JSON text of a record. A row is read as a record exactly if each
of its cells holds the field that it is for, so that a row with one damaged cell is not read at all.
-/

namespace JobLedger

open Text

/-- A mapped result is that of a result. -/
theorem map_eq_ok_iff {ε α β : Type} {x : Except ε α} {f : α → β} {b : β} :
    x.map f = .ok b ↔ ∃ a, x = .ok a ∧ f a = b := by
  cases x with
  | error e => simp [Except.map]
  | ok a => simp [Except.map]

/-! ## Cells -/

namespace Cell

/-- The cell holds the frame of optional octets. -/
def HoldsToken (cell : Cell) (token : Option Octets) : Prop :=
  ∃ frame, cell = .blob frame ∧ Frame.encode token = .ok frame

/-- The cell holds the frame of a JSON text that is read as a value. -/
def HoldsValue {α : Type} [JsonForm α] (cell : Cell) (value : α) : Prop :=
  ∃ source, cell.HoldsToken (some source) ∧ Codec.ofJsonOctets? source = some value

variable {operation : String} {cell : Cell}

/-- Only an integer is read as an integer. -/
theorem readInt_eq_ok_iff {i : Int} : cell.readInt operation = .ok i ↔ cell = .int i := by
  cases cell <;> simp [readInt]

/-- Only a text is read as a text. -/
theorem readText_eq_ok_iff {s : String} : cell.readText operation = .ok s ↔ cell = .text s := by
  cases cell <;> simp [readText]

/-- Only a blob is read as a blob. -/
theorem readBlob_eq_ok_iff {source : Octets} :
    cell.readBlob operation = .ok source ↔ cell = .blob source := by
  cases cell <;> simp [readBlob]

/-- Only an integer in range is read as a time. -/
theorem readTime_eq_ok_iff {t : Timestamp} : cell.readTime operation = .ok t ↔ cell = .time t := by
  constructor
  · intro h
    obtain ⟨i, hi, ht⟩ := bind_eq_ok_iff.mp h
    obtain rfl := readInt_eq_ok_iff.mp hi
    cases hword : int64? i with
    | none =>
      rw [Timestamp.ofMillis?, hword] at ht
      exact nomatch ht
    | some word =>
      rw [Timestamp.ofMillis?, hword] at ht
      obtain rfl := Except.ok.inj ht
      rw [time, toInt_of_int64? hword]
  · rintro rfl
    exact readTime_time operation t

/-- A column that may be empty is read like any other, and as nothing if it is empty. -/
theorem readOption_eq_ok_iff {α : Type} {read : Cell → Except StoreError α} {f : α → Cell}
    (hread : ∀ cell a, read cell = .ok a ↔ cell = f a) (hnull : ∀ a, f a ≠ .null) {o : Option α} :
    cell.readOption read = .ok o ↔ cell = .ofOption f o := by
  by_cases hcell : cell = .null
  · subst hcell
    cases o with
    | none => simp [readOption, ofOption]
    | some a => simp [readOption, ofOption, (hnull a).symm]
  · have hsome : cell.readOption read = (read cell).map some := by
      cases cell with
      | null => exact absurd rfl hcell
      | _ => rfl
    rw [hsome, map_eq_ok_iff]
    cases o with
    | none => simp [ofOption, hcell]
    | some a => simp [ofOption, hread]

/-- Only a text or nothing is read as a text that may be missing. -/
theorem readOptionText_eq_ok_iff {s : Option String} :
    cell.readOption (readText operation) = .ok s ↔ cell = .ofOption .text s :=
  readOption_eq_ok_iff (fun _ _ => readText_eq_ok_iff) nofun

/-- Only a time or nothing is read as a time that may be missing. -/
theorem readOptionTime_eq_ok_iff {t : Option Timestamp} :
    cell.readOption (readTime operation) = .ok t ↔ cell = .ofOption .time t :=
  readOption_eq_ok_iff (fun _ _ => readTime_eq_ok_iff) nofun

end Cell

/-! ## Values -/

/-- An identifier has a row if its number fits a signed word. -/
theorem rowOf_eq_ok_iff {entity : Entity} {id : Id entity} {row : Int} :
    rowOf id = .ok row ↔ (id.number : Int) < signedLimit ∧ id.number = row := by
  by_cases h : (id.number : Int) < signedLimit
  · rw [rowOf_of_lt h, Except.ok.injEq, and_iff_right h]
  · rw [rowOf_of_not_lt h]
    exact ⟨nofun, fun hboth => absurd hboth.1 h⟩

/-- The number of a row is that of at most one identifier. -/
theorem idOfRow_eq_ok_iff {entity : Entity} {row : Int} {id : Id entity} :
    idOfRow row = .ok id ↔ row = id.number := by
  constructor
  · intro h
    rw [idOfRow] at h
    cases hid : (Id.ofNat? row.toNat : Option (Id entity)) with
    | none =>
      rw [hid] at h
      cases h
    | some found =>
      rw [hid] at h
      obtain rfl := Except.ok.inj h
      have hnumber := Id.ofNat?_eq_some_iff.mp hid
      have hpos := found.pos
      omega
  · rintro rfl
    exact idOfRow_number id

/-- Only its own label is read as a status. -/
theorem storedStatus_eq_ok_iff {label : String} {status : BatchStatus} :
    storedStatus label = .ok status ↔ label = status.label := by
  constructor
  · intro h
    rw [storedStatus] at h
    cases hstatus : BatchStatus.ofLabel? label with
    | none =>
      rw [hstatus] at h
      cases h
    | some found =>
      rw [hstatus] at h
      obtain rfl := Except.ok.inj h
      exact (BatchStatus.label_of_ofLabel? hstatus).symm
  · rintro rfl
    exact storedStatus_label status

/-- Only the frame of a token is read as that token. -/
theorem storedToken_eq_ok_iff {place : BlobPlace} {frame : Octets} {token : Option Octets} :
    storedToken place frame = .ok token ↔ Frame.encode token = .ok frame := by
  rw [← Frame.decode_eq_ok_iff, storedToken]
  cases Frame.decode frame with
  | error fault => simp
  | ok found => simp

/-- A record is read from a frame with a form of it inside, and from nothing else. -/
theorem storedValue_eq_ok_iff {α : Type} [JsonForm α] {place : BlobPlace} {frame : Octets}
    {value : α} : storedValue (Codec.json α) place frame = .ok value ↔
      ∃ source, Frame.encode (some source) = .ok frame ∧
        Codec.ofJsonOctets? source = some value := by
  rw [storedValue, Codec.decodeBlob]
  simp only [← Frame.decode_eq_ok_iff]
  cases Frame.decode frame with
  | error fault => simp
  | ok token =>
    cases token with
    | none => simp
    | some source =>
      dsimp only [Codec.json]
      cases hvalue : (Codec.ofJsonOctets? source : Option α) with
      | none => simp [hvalue]
      | some found => simp [hvalue]

/-- A blob is read as a value exactly if it is the frame of a JSON text of the value. -/
theorem readBlob_storedValue_eq_ok_iff {α : Type} [JsonForm α] {operation : String}
    {place : BlobPlace} {cell : Cell} {value : α} :
    (cell.readBlob operation >>= storedValue (Codec.json α) place) = .ok value ↔
      cell.HoldsValue value := by
  simp only [bind_eq_ok_iff, Cell.readBlob_eq_ok_iff, storedValue_eq_ok_iff]
  constructor
  · rintro ⟨frame, hcell, source, hframe, hvalue⟩
    exact ⟨source, ⟨frame, hcell, hframe⟩, hvalue⟩
  · rintro ⟨source, ⟨frame, hcell, hframe⟩, hvalue⟩
    exact ⟨frame, hcell, source, hframe, hvalue⟩

/-- A record stands in the cell that it was written to. -/
theorem holdsValue_recordCell {α : Type} [JsonForm α] [LawfulForm α] {a : α} (h : HasBlob a) :
    (Memory.recordCell a).HoldsValue a :=
  ⟨Codec.jsonOctets a, ⟨blob a, rfl, Frame.encode_of_fits h⟩,
    Codec.ofJsonOctets?_jsonOctets (LawfulForm.readsBack a)⟩

/-! ## Counters -/

/-- If a check recovers each counter, it recovers all of them. -/
theorem Counters.traverse_eq_ok_iff {ε α β : Type} {f : α → Except ε β} {g : β → α}
    {c : Counters α} {d : Counters β} (h : ∀ a ∈ c.toList, ∀ b, f a = .ok b ↔ a = g b) :
    c.traverse f = .ok d ↔ c = d.map g := by
  obtain ⟨a₁, a₂, a₃, a₄, a₅, a₆, a₇, a₈⟩ := c
  obtain ⟨b₁, b₂, b₃, b₄, b₅, b₆, b₇, b₈⟩ := d
  simp only [toList, List.forall_mem_cons] at h
  obtain ⟨h₁, h₂, h₃, h₄, h₅, h₆, h₇, h₈, -⟩ := h
  simp only [traverse, bind_eq_ok_iff, h₁, h₂, h₃, h₄, h₅, h₆, h₇, h₈, map, Counters.mk.injEq]
  constructor
  · rintro ⟨b, rfl, c, rfl, d, rfl, e, rfl, f, rfl, g, rfl, h, rfl, i, rfl, heq⟩
    cases heq
    exact ⟨rfl, rfl, rfl, rfl, rfl, rfl, rfl, rfl⟩
  · rintro ⟨rfl, rfl, rfl, rfl, rfl, rfl, rfl, rfl⟩
    exact ⟨_, rfl, _, rfl, _, rfl, _, rfl, _, rfl, _, rfl, _, rfl, _, rfl, rfl⟩

/-- Only integers are read as counters. -/
theorem readCounters_eq_ok_iff {operation : String} {cells : Counters Cell}
    {numbers : Counters Int} :
    cells.traverse (Cell.readInt operation) = .ok numbers ↔ cells = numbers.map .int :=
  Counters.traverse_eq_ok_iff fun _ _ _ => Cell.readInt_eq_ok_iff

/-- Numbers of 64 bits are taken as counts exactly if they are those counts. A negative one is
none. -/
theorem storedCounts_eq_ok_iff {numbers : Counters Int} {metrics : StepMetrics}
    (h : ∀ n ∈ numbers.toList, FitsSigned n) :
    storedCounts numbers = .ok metrics ↔ numbers = metrics.map fun count => (count.toNat : Int) := by
  refine Counters.traverse_eq_ok_iff fun n hn count => ?_
  have hlt : n < UInt64.size := Int.lt_trans (h n hn).2 (by decide)
  by_cases hsign : 0 ≤ n
  · rw [if_pos hsign, Except.ok.injEq, ← UInt64.toNat_inj, UInt64.toNat_ofNat_of_lt' (by omega)]
    omega
  · rw [if_neg hsign]
    exact ⟨nofun, fun heq => by omega⟩

/-! ## Rows -/

/-- The cells of the row of an execution hold the execution, and the row of its instance the name of
the job. -/
structure ExecutionRow.Holds (r : ExecutionRow) (i : InstanceRow) (e : JobExecution) : Prop where
  instanceId : r.instanceId = .int e.instanceId.number
  jobName : i.name = .text e.jobName
  createTime : r.createTime = .time e.createTime
  startTime : r.startTime = .ofOption .time e.startTime
  endTime : r.endTime = .ofOption .time e.endTime
  updateTime : r.updateTime = .time e.updateTime
  status : r.status = .text e.status.label
  exitStatus : r.exitStatus = .ofOption .text e.exitStatus
  parameters : r.parameters.HoldsValue e.parameters

/-- The cells of the row of a step execution hold the step execution. -/
structure StepRow.Holds (r : StepRow) (s : StepExecution) : Prop where
  executionId : r.executionId = .int s.executionId.number
  stepName : r.stepName = .text s.stepName
  status : r.status = .text s.status.label
  exitStatus : r.exitStatus = .ofOption .text s.exitStatus
  counters : r.counters = countCells s.metrics
  startTime : r.startTime = .time s.startTime
  endTime : r.endTime = .ofOption .time s.endTime
  userData : r.userData.HoldsToken s.userData

section Rows

variable {operation : String} {row : Int}

/-- A row is read as an execution exactly if its cells hold it. -/
theorem ExecutionRow.reads_iff {r : ExecutionRow} {i : InstanceRow} {e : JobExecution} :
    (∃ v, r.values operation row i.name = .ok v ∧ v.record = .ok e) ↔
      row = e.id.number ∧ r.Holds i e := by
  constructor
  · rintro ⟨v, hvalues, hrecord⟩
    simp only [values, bind_eq_ok_iff, Cell.readInt_eq_ok_iff, Cell.readText_eq_ok_iff,
      Cell.readTime_eq_ok_iff, Cell.readOptionTime_eq_ok_iff, Cell.readOptionText_eq_ok_iff,
      Cell.readBlob_eq_ok_iff, Except.ok.injEq] at hvalues
    obtain ⟨instanceId, hinstance, name, hname, create, hcreate, start, hstart, finish, hfinish,
      update, hupdate, label, hlabel, exit, hexit, frame, hframe, rfl⟩ := hvalues
    simp only [ExecutionValues.record, bind_eq_ok_iff, idOfRow_eq_ok_iff, storedParameters,
      storedValue_eq_ok_iff, storedStatus_eq_ok_iff, Except.ok.injEq] at hrecord
    obtain ⟨id, hid, parameters, ⟨source, hsource, hvalue⟩, owner, rfl, status, rfl, rfl⟩ := hrecord
    exact ⟨hid, {
      instanceId := hinstance
      jobName := hname
      createTime := hcreate
      startTime := hstart
      endTime := hfinish
      updateTime := hupdate
      status := hlabel
      exitStatus := hexit
      parameters := ⟨source, ⟨frame, hframe, hsource⟩, hvalue⟩ }⟩
  · rintro ⟨rfl, h⟩
    obtain ⟨source, ⟨frame, hframe, hsource⟩, hvalue⟩ := h.parameters
    refine ⟨{ executionValues e with parameters := frame }, ?_,
      record_of_values (idOfRow_number _) (storedValue_eq_ok_iff.mpr ⟨source, hsource, hvalue⟩)
        (idOfRow_number _) (storedStatus_label _)⟩
    simp only [values, h.instanceId, h.jobName, h.createTime, h.startTime, h.endTime, h.updateTime,
      h.status, h.exitStatus, hframe, Cell.readText, Cell.readInt, Cell.readBlob, readTime_time,
      readOption_text, readOption_time, bind, Except.bind, executionValues]

/-- A row whose counters are numbers of 64 bits is read as a step execution exactly if its cells hold
it. -/
theorem StepRow.reads_iff {r : StepRow} {s : StepExecution}
    (hfit : ∀ i, .int i ∈ r.counters.toList → FitsSigned i) :
    (∃ v, r.values operation row = .ok v ∧ v.record = .ok s) ↔
      row = s.id.number ∧ r.Holds s := by
  constructor
  · rintro ⟨v, hvalues, hrecord⟩
    simp only [values, bind_eq_ok_iff, Cell.readInt_eq_ok_iff, Cell.readText_eq_ok_iff,
      Cell.readTime_eq_ok_iff, Cell.readOptionTime_eq_ok_iff, Cell.readOptionText_eq_ok_iff,
      Cell.readBlob_eq_ok_iff, readCounters_eq_ok_iff, Except.ok.injEq] at hvalues
    obtain ⟨executionId, hexecution, name, hname, label, hlabel, exit, hexit, numbers, hnumbers,
      start, hstart, finish, hfinish, frame, hframe, rfl⟩ := hvalues
    have hsigned : ∀ n ∈ numbers.toList, FitsSigned n := by
      intro n hn
      refine hfit n ?_
      rw [hnumbers, Counters.toList_map]
      exact List.mem_map_of_mem hn
    simp only [StepValues.record, bind_eq_ok_iff, idOfRow_eq_ok_iff, storedToken_eq_ok_iff,
      storedStatus_eq_ok_iff, storedCounts_eq_ok_iff hsigned, Except.ok.injEq] at hrecord
    obtain ⟨id, hid, token, htoken, owner, rfl, status, rfl, metrics, rfl, rfl⟩ := hrecord
    exact ⟨hid, {
      executionId := hexecution
      stepName := hname
      status := hlabel
      exitStatus := hexit
      counters := hnumbers
      startTime := hstart
      endTime := hfinish
      userData := ⟨frame, hframe, htoken⟩ }⟩
  · rintro ⟨rfl, h⟩
    obtain ⟨frame, hframe, htoken⟩ := h.userData
    have hcounters : (countCells s.metrics).traverse (Cell.readInt operation) =
        .ok (s.metrics.map fun count => (count.toNat : Int)) :=
      readCounters_eq_ok_iff.mpr rfl
    refine ⟨{ stepValues s with userData := frame }, ?_, ?_⟩
    · simp only [values, h.executionId, h.stepName, h.status, h.exitStatus, h.counters,
        h.startTime, h.endTime, hframe, hcounters, Cell.readText, Cell.readInt, Cell.readBlob,
        readTime_time, readOption_text, readOption_time, bind, Except.bind, stepValues]
    · simp only [StepValues.record, stepValues, idOfRow_number, storedStatus_label,
        storedToken_eq_ok_iff.mpr htoken, storedCounts_map, bind, Except.bind]

end Rows

end JobLedger
