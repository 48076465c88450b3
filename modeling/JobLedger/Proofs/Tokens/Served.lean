import JobLedger.Proofs.Memory.PurgeExact
import JobLedger.Proofs.Tokens.Kept

/-!
# Stores that serve restart tokens from a map

A store that carries ledgers answers the operations on restart tokens as the map does that the ledger
keeps. Where it has no room for a token it refuses to write it.
-/

namespace JobLedger

open JobLedger.Action Text

/-- A call that only reads or writes restart tokens that there is room for, or purges them. -/
def Call.IsOnTokens (fits : Option Octets → Bool) : Call → Prop
  | .createPair .. | .findPair .. | .purge _ => True
  | .updatePair _ _ pair => (fits pair.reader && fits pair.writer) = true
  | _ => False

/-- What a store is like that carries ledgers and has room for the tokens that fit. -/
structure CarriesTokens {σ : Type} [LedgerStore σ] (fits : Option Octets → Bool)
    (Carries : σ → Memory → Prop) : Prop where
  wellFormed {s m} : Carries s m → m.WellFormed
  /-- Calls on restart tokens are answered as by the ledger. -/
  alike (call) : call.IsOnTokens fits →
    Simulates Carries (LedgerStore.perform call) (LedgerStore.perform call)
  /-- Tokens that do not fit are refused. -/
  refused {s m} (id step) {pair : CheckpointPair} : Carries s m →
    (fits pair.reader && fits pair.writer) = false →
    (perform (.updatePair id step pair) s).answer =
        .error ⟨.invalid, .unwritten (.payload .tooLong)⟩ ∧
      Carries (perform (.updatePair id step pair) s).state m
  /-- Every other call takes effect as on the ledger, or none. -/
  cases {s m} (call) : Carries s m →
    Carries (perform call s).state (perform call m).state ∨ Carries (perform call s).state m
  tagged_eq {s m} (tag id) : Carries s m → TokenMap.tagged s tag id = (m.instancesOf tag).contains id

/-- A store carries a ledger that keeps the pairs of a map. -/
def TracksTokens {σ : Type} (Carries : σ → Memory → Prop) (s : σ) (map : TokenMap) : Prop :=
  ∃ m, Carries s m ∧ m.KeepsTokens map

namespace TokenMap

/-- The pair of a step is looked up, created where it is missing, and looked up again. -/
def ensureInSteps (id : InstanceId) (step : String) : Action LedgerError TokenMap CheckpointPair := do
  ensureStepName step
  match ← look fun map => .ok (map id step) with
  | some pair => answer pair
  | none =>
    orElse (create id step) fun e => if e.kind = .alreadyExists then answer () else fail e
    get id step

/-- What was created is found. -/
theorem ensureInSteps_apply (id : InstanceId) (step : String) (map : TokenMap) :
    (ensureInSteps id step map).answer = (ensure id step map).answer ∧
      (ensureInSteps id step map).state = (ensure id step map).state := by
  rw [ensureInSteps, ensure, create, get, ensureStepName]
  cases stepNameFault? step with
  | some fault => exact ⟨rfl, rfl⟩
  | none =>
    cases hfound : map id step with
    | some pair => simp [bind_apply, change, findOrAdd, hfound]
    | none => simp [bind_apply, change, Action.orElse, findOrAdd, add, find, put, hfound]

/-- Other operations than those on the map, and than purges, make no calls that write to it. -/
theorem leavesTokens_of_makes {fits : Option Octets → Bool} {operation : Operation}
    (hserve : serve fits operation = none)
    (hpurge : ∀ tag, operation = .call (.purge tag) → False) {call : Call}
    (hmakes : operation.Makes call) : call.LeavesTokens := by
  cases operation with
  | call c =>
    obtain rfl : call = c := hmakes
    cases call with
    | purge tag => exact (hpurge tag rfl).elim
    | createPair id step => cases hserve
    | updatePair id step pair => cases hserve
    | _ => trivial
  | updateJobStatus status | updateStepStatus id step status =>
    rcases hmakes with rfl | rfl <;> trivial
  | moveJob id transition | partitionTotals root step =>
    rcases hmakes with rfl | ⟨_, rfl⟩ <;> trivial
  | aggregatePartitions root step parent time final =>
    rcases hmakes with (rfl | ⟨_, rfl⟩) | rfl | ⟨_, rfl⟩ <;> trivial
  | createPartitions root step count appTag =>
    obtain ⟨_, rfl⟩ := hmakes
    trivial
  | createJobStatus id | jobStatus id | jobStatusOf id | createStepStatus id | stepStatus id step
  | incrementStartCount id =>
    obtain rfl : call = _ := hmakes
    trivial
  | _ => cases hserve

/-- A text that is no step name is not half of a pair. -/
theorem failsOnly_ensureStepName (step : String) :
    FailsOnly (fun e => ¬ IsHalf e) (ensureStepName step : Action LedgerError TokenMap Unit) := by
  rw [ensureStepName]
  cases stepNameFault? step with
  | none => exact .answer ()
  | some fault => exact .fail (by simp [IsHalf])

/-- A map holds no half pairs, so that none is found in the way of a new one. -/
theorem failsOnly_create (id : InstanceId) (step : String) :
    FailsOnly (fun e => ¬ IsHalf e) (create id step) := by
  refine (failsOnly_ensureStepName step).bind fun _ => .change fun map e he => ?_
  rw [add] at he
  split at he
  · obtain rfl := Except.error.inj he
    simp [IsHalf]
  · cases he

/-- A map holds no half pairs, so that none is found. -/
theorem failsOnly_get (id : InstanceId) (step : String) :
    FailsOnly (fun e => ¬ IsHalf e) (get id step) := by
  refine (failsOnly_ensureStepName step).bind fun _ => .look fun map e he => ?_
  rw [find] at he
  split at he
  · cases he
  · obtain rfl := Except.error.inj he
    simp [IsHalf]

/-- Making sure of a pair finds no half of one. -/
theorem failsOnly_ensure (id : InstanceId) (step : String) :
    FailsOnly (fun e => ¬ IsHalf e) (ensure id step) := by
  refine (failsOnly_ensureStepName step).bind fun _ => .change fun map e he => ?_
  rw [findOrAdd] at he
  split at he <;> cases he

/-- Replacing tokens finds no half of a pair. -/
theorem failsOnly_replace (fits : Option Octets → Bool) (id : InstanceId) (step : String)
    (pair : CheckpointPair) :
    FailsOnly (fun e => ¬ IsHalf e) (change (replace fits id step pair)) := by
  refine .change fun map e he => ?_
  rw [replace] at he
  split at he
  · split at he
    · cases he
    · obtain rfl := Except.error.inj he
      simp [IsHalf]
  · obtain rfl := Except.error.inj he
    simp [IsHalf]

/-- A token that a codec does not read is not half of a pair. -/
theorem failsOnly_decodeToken {α : Type} (codec : Codec α) (place : BlobPlace)
    (token : Option Octets) : FailsOnly (fun e => ¬ IsHalf e)
      (ofExcept (Checkpoint.decodeToken codec place token) : Action LedgerError TokenMap _) := by
  refine .ofExcept fun e he => ?_
  cases token with
  | none => cases he
  | some token =>
    rw [Checkpoint.decodeToken] at he
    split at he
    · cases he
    · obtain rfl := Except.error.inj he
      simp [IsHalf]

/-- A value that a codec does not write is not half of a pair. -/
theorem failsOnly_encodeToken {α : Type} (codec : Codec α) (place : BlobPlace)
    (value : Option α) : FailsOnly (fun e => ¬ IsHalf e)
      (ofExcept (Checkpoint.encodeToken codec place value) : Action LedgerError TokenMap _) := by
  refine .ofExcept fun e he => ?_
  cases value with
  | none => cases he
  | some value =>
    rw [Checkpoint.encodeToken] at he
    split at he
    · cases he
    · obtain rfl := Except.error.inj he
      simp [IsHalf]

/-- An update finds no half of a pair. -/
theorem failsOnly_update (fits : Option Octets → Bool) (id : InstanceId) (step : String)
    (pair : CheckpointPair) : FailsOnly (fun e => ¬ IsHalf e) (update fits id step pair) :=
  (failsOnly_ensureStepName step).bind fun _ => failsOnly_replace fits id step pair

/-- On a map there are no half pairs to tell of. -/
theorem failsOnly_serve {fits : Option Octets → Bool} {operation : Operation}
    {x : Action LedgerError TokenMap operation.Answer} (hx : serve fits operation = some x) :
    FailsOnly (fun e => ¬ IsHalf e) x := by
  cases operation with
  | call c =>
    cases c with
    | createPair id step =>
      obtain rfl := Option.some.inj hx
      exact failsOnly_create id step
    | findPair id step =>
      obtain rfl := Option.some.inj hx
      exact .look fun _ _ he => by cases he
    | updatePair id step pair =>
      obtain rfl := Option.some.inj hx
      exact failsOnly_replace fits id step pair
    | _ => cases hx
  | createCheckpoint id step =>
    obtain rfl := Option.some.inj hx
    exact failsOnly_create id step
  | ensureCheckpoint id step =>
    obtain rfl := Option.some.inj hx
    exact failsOnly_ensure id step
  | getCheckpoint id step =>
    obtain rfl := Option.some.inj hx
    exact failsOnly_get id step
  | updateCheckpoint id step pair =>
    obtain rfl := Option.some.inj hx
    exact failsOnly_update fits id step pair
  | getDecoded reader writer id step =>
    obtain rfl := Option.some.inj hx
    exact (failsOnly_get id step).bind fun _ => (failsOnly_decodeToken _ _ _).bind fun _ =>
      (failsOnly_decodeToken _ _ _).bind fun _ => .answer _
  | updateEncoded reader writer id step read written =>
    obtain rfl := Option.some.inj hx
    exact (failsOnly_encodeToken _ _ _).bind fun _ => (failsOnly_encodeToken _ _ _).bind fun _ =>
      failsOnly_update fits id step _
  | _ => cases hx

end TokenMap

section Served

variable {σ : Type} [LedgerStore σ] {fits : Option Octets → Bool} {Carries : σ → Memory → Prop}
  (hcarries : CarriesTokens fits Carries)

include hcarries

namespace CarriesTokens

/-! ## Calls -/

/-- The store creates a pair as the map does. -/
theorem simulates_createPair (id : InstanceId) (step : String) :
    Simulates (TracksTokens Carries) (perform (.createPair id step)) (TokenMap.create id step) :=
  (hcarries.alike (.createPair id step) trivial).comp (Memory.simulates_createPair id step)

/-- The store finds a pair as the map does. -/
theorem simulates_findPair (id : InstanceId) (step : String) :
    Simulates (TracksTokens Carries) (perform (.findPair id step))
      (look fun map => .ok (map id step)) :=
  (hcarries.alike (.findPair id step) trivial).comp (Memory.simulates_findPair id step)

/-- The store replaces tokens as the map does, up to what fits a frame. -/
theorem simulates_updatePair (id : InstanceId) (step : String) (pair : CheckpointPair) :
    Simulates (TracksTokens Carries) (perform (.updatePair id step pair))
      (change (TokenMap.replace fits id step pair)) := by
  cases hfits : fits pair.reader && fits pair.writer with
  | true =>
    exact (hcarries.alike (.updatePair id step pair) hfits).comp
      (Memory.simulates_updatePair id step hfits)
  | false =>
    rintro s map ⟨m, hm, hmap⟩
    have hreplace : TokenMap.replace fits id step pair map =
        .error ⟨.invalid, .unwritten (.payload .tooLong)⟩ := by
      rw [TokenMap.replace, hfits, if_neg Bool.false_ne_true]
    obtain ⟨hanswer, hstate⟩ := hcarries.refused id step hm hfits
    rw [change_error hreplace]
    exact ⟨hanswer, m, hstate, hmap⟩

/-- A purge drops the pairs of the instances of its tag. -/
theorem tracks_purge {s : σ} {map : TokenMap} (h : TracksTokens Carries s map) (tag : String) :
    TracksTokens Carries (perform (.purge tag) s).state (map.drop (TokenMap.tagged s tag)) := by
  obtain ⟨m, hm, hmap⟩ := h
  have htagged : TokenMap.tagged s tag = (m.instancesOf tag).contains :=
    funext fun id => hcarries.tagged_eq tag id hm
  have hnext := (hcarries.alike (.purge tag) trivial s m hm).2
  rw [(hcarries.wellFormed hm).perform_purge] at hnext
  rw [htagged]
  exact ⟨_, hnext, hmap.remaining tag⟩

/-- Calls that leave the tokens leave the map that they are those of. -/
theorem keeps_tracks {call : Call} (hcall : call.LeavesTokens) (map : TokenMap) :
    Keeps (fun s => TracksTokens Carries s map)
      (perform call : Action LedgerError σ call.Answer) := by
  rintro s ⟨m, hm, hmap⟩
  rcases hcarries.cases call hm with hnext | hsame
  · exact ⟨_, hnext, hmap.perform hcall⟩
  · exact ⟨m, hsame, hmap⟩

/-! ## Operations -/

/-- A step name is checked in front of the creation on both sides. -/
theorem simulates_create (id : InstanceId) (step : String) :
    Simulates (TracksTokens Carries) (Checkpoint.create id step) (TokenMap.create id step) :=
  simulates_checked ((hcarries.simulates_createPair id step).then_report _)

/-- A pair that is missing is an error on both sides. -/
theorem simulates_get (id : InstanceId) (step : String) :
    Simulates (TracksTokens Carries) (Checkpoint.get id step) (TokenMap.get id step) := by
  refine (simulates_ensureStepName step).bind fun _ => ?_
  refine Simulates.congr (y := look (fun map => .ok (map id step)) >>=
      fun found => ofOption ⟨.notFound, .checkpointPair id step⟩ found)
    ((hcarries.simulates_findPair id step).bind fun found => .ofOption _ found) fun map => ?_
  rw [look_apply, TokenMap.find, (bind_ok rfl _).1, (bind_ok rfl _).2, look_apply, ofOption_apply]
  cases map id step with
  | none => exact ⟨rfl, rfl⟩
  | some pair => exact ⟨rfl, rfl⟩

/-- A step name is checked in front of an update on both sides. -/
theorem simulates_update (id : InstanceId) (step : String) (pair : CheckpointPair) :
    Simulates (TracksTokens Carries) (Checkpoint.update id step pair)
      (TokenMap.update fits id step pair) :=
  (simulates_ensureStepName step).bind fun _ =>
    (hcarries.simulates_updatePair id step pair).then_report _

/-- Making sure of a pair creates it on both sides or on none. -/
theorem simulates_ensure (id : InstanceId) (step : String) :
    Simulates (TracksTokens Carries) (Checkpoint.ensure id step) (TokenMap.ensure id step) := by
  have hsteps : Simulates (TracksTokens Carries) (Checkpoint.ensure id step)
      (TokenMap.ensureInSteps id step) := by
    refine (simulates_ensureStepName step).bind fun _ =>
      (hcarries.simulates_findPair id step).bind fun found => ?_
    cases found with
    | some pair => exact .answer pair
    | none =>
      refine ((hcarries.simulates_create id step).orElse fun e => ?_).bind fun _ =>
        hcarries.simulates_get id step
      split
      · exact .answer ()
      · exact .fail e
  exact hsteps.congr (TokenMap.ensureInSteps_apply id step)

/-- An operation on restart tokens is one on the map. -/
theorem simulates_serve {operation : Operation} {x : Action LedgerError TokenMap operation.Answer}
    (hx : TokenMap.serve fits operation = some x) :
    Simulates (TracksTokens Carries) operation.perform x := by
  cases operation with
  | call c =>
    cases c with
    | createPair id step =>
      obtain rfl := Option.some.inj hx
      exact hcarries.simulates_createPair id step
    | findPair id step =>
      obtain rfl := Option.some.inj hx
      exact hcarries.simulates_findPair id step
    | updatePair id step pair =>
      obtain rfl := Option.some.inj hx
      exact hcarries.simulates_updatePair id step pair
    | _ => cases hx
  | createCheckpoint id step =>
    obtain rfl := Option.some.inj hx
    exact hcarries.simulates_create id step
  | ensureCheckpoint id step =>
    obtain rfl := Option.some.inj hx
    exact hcarries.simulates_ensure id step
  | getCheckpoint id step =>
    obtain rfl := Option.some.inj hx
    exact hcarries.simulates_get id step
  | updateCheckpoint id step pair =>
    obtain rfl := Option.some.inj hx
    exact hcarries.simulates_update id step pair
  | getDecoded reader writer id step =>
    obtain rfl := Option.some.inj hx
    exact (hcarries.simulates_get id step).bind fun _ => (Simulates.ofExcept _).bind fun _ =>
      (Simulates.ofExcept _).bind fun _ => .answer _
  | updateEncoded reader writer id step read written =>
    obtain rfl := Option.some.inj hx
    exact (Simulates.ofExcept _).bind fun _ => (Simulates.ofExcept _).bind fun _ =>
      hcarries.simulates_update id step _
  | _ => cases hx

/-- What an operation leaves is what it leaves of the map. -/
theorem tracks_next {s : σ} {map : TokenMap} (h : TracksTokens Carries s map)
    (operation : Operation) :
    TracksTokens Carries (operation.next s)
      (map.next fits (TokenMap.tagged s) operation) := by
  rw [TokenMap.next.eq_def]
  split
  · next tag => exact hcarries.tracks_purge h tag
  · next hpurge =>
    cases hserve : TokenMap.serve fits operation with
    | some x => exact (hcarries.simulates_serve hserve s map h).2
    | none =>
      have hcalls (call : Call) (hmakes : operation.Makes call) :=
        hcarries.keeps_tracks (TokenMap.leavesTokens_of_makes hserve hpurge hmakes) map
      exact Operation.keeps_perform hcalls s h

/-- Through every sequence of operations the store answers as the map that it tracks. -/
theorem explains {s : σ} {map : TokenMap} (h : TracksTokens Carries s map)
    (operations : List Operation) : TokenMap.Explains fits map s operations := by
  induction operations generalizing s map with
  | nil => trivial
  | cons operation rest ih =>
    refine ⟨fun x hx => ?_, ih (hcarries.tracks_next h operation)⟩
    have hanswer := (hcarries.simulates_serve hx s map h).1
    refine ⟨hanswer, fun e he => ?_⟩
    exact TokenMap.failsOnly_serve hx map e (hanswer ▸ he)

end CarriesTokens

end Served

end JobLedger
