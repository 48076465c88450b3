import JobLedger.Proofs.Runs

/-!
# Pages of instances

The instances of a name are listed page by page, the latest first. A page is a window of one list,
which has every instance of the name once, whatever tags there are and whatever has been purged; the
number of instances is asked for apart, and is the length of that list. A reader who goes through it
page by page sees each instance once.
-/

namespace JobLedger

open JobLedger.Action

section Statement

variable {σ : Type} [LedgerStore σ]

/-- Reads a number of pages of one size, one after the other, from a position on. -/
def readPages (name : String) (appTag : Option String) (size : Nat) :
    Nat → Nat → Action LedgerError σ (List InstanceId)
  | 0, _ => answer []
  | pages + 1, start => do
    let page ← perform (.pageInstances name appTag start size)
    let others ← readPages name appTag size pages (start + size)
    answer (page ++ others)

/-- An instance of a name, and of a tag if one is given, is found under a number. -/
def IsNamed (s : σ) (name : String) (appTag : Option String) (id : InstanceId) : Prop :=
  ∃ i, (perform (.findInstance id) s).answer = .ok (some i) ∧ i.name = name ∧
    ∀ tag, appTag = some tag → i.appTag = tag

/-- A list of numbers is what a store pages through for a name and an optional tag. -/
structure PagesThrough (s : σ) (name : String) (appTag : Option String) (ids : List InstanceId) :
    Prop where
  /-- The latest instance comes first, and none comes twice. -/
  descending : ids.Pairwise fun a b => b.number < a.number
  /-- The list is complete, and has nothing else. -/
  named : ∀ id, id ∈ ids ↔ IsNamed s name appTag id
  counted : (perform (.countInstances name appTag) s).answer = .ok ids.length
  paged : ∀ start count : Nat, (perform (.pageInstances name appTag start count) s).answer =
    .ok ((ids.drop start).take count)
  /-- As many pages as are needed give the list, whatever their size is. -/
  read : ∀ size pages : Nat, ids.length ≤ pages * size →
    (readPages name appTag size pages 0 s).answer = .ok ids

/-- For every name and tag there is a list that the store pages through. -/
def PagesInstances (s : σ) : Prop :=
  ∀ (name : String) (appTag : Option String), ∃ ids, PagesThrough s name appTag ids

end Statement

namespace Memory

variable {m : Memory}

/-- The numbers of the instances of a name, the latest first. -/
def namedIds (m : Memory) (name : String) (appTag : Option String) : List InstanceId :=
  (m.named name appTag).reverse.map JobInstance.id

/-- The instances of a name are those that have it, and the tag if one is given. -/
theorem mem_named_iff {name : String} {appTag : Option String} {i : JobInstance} :
    i ∈ m.named name appTag ↔
      i ∈ m.instances ∧ i.name = name ∧ ∀ tag, appTag = some tag → i.appTag = tag := by
  cases appTag <;> simp [named]

/-- There are as many identifiers as instances of a name. -/
theorem length_namedIds (name : String) (appTag : Option String) :
    (m.namedIds name appTag).length = (m.named name appTag).length := by
  rw [namedIds, List.length_map, List.length_reverse]

/-- A page is a window of the identifiers of a name. -/
theorem pageInstances_eq_window (name : String) (appTag : Option String) (start count : Nat) :
    m.pageInstances name appTag start count =
      ((m.namedIds name appTag).drop start).take count := by
  rw [pageInstances, namedIds, List.map_take, List.map_drop]

/-- The identifiers of a name are listed in descending order. -/
theorem WellFormed.descending_namedIds (h : m.WellFormed) (name : String)
    (appTag : Option String) :
    (m.namedIds name appTag).Pairwise fun a b => b.number < a.number := by
  have hsorted : SortedIds JobInstance.id (m.named name appTag) := h.instances_sorted.filter _
  exact List.pairwise_map.mpr (List.pairwise_reverse.mpr hsorted)

end Memory

section Carried

variable {σ : Type} [LedgerStore σ] {Carries : σ → Memory → Prop}
  (hcarries : CarriesLedger Carries) {s : σ} {m : Memory} (hm : Carries s m)
  (name : String) (appTag : Option String)

include hcarries hm

/-- The listed identifiers are those of the instances of a name. -/
theorem mem_namedIds_iff (id : InstanceId) :
    id ∈ m.namedIds name appTag ↔ IsNamed s name appTag id := by
  have hformed := hcarries.wellFormed hm
  constructor
  · intro hmem
    obtain ⟨i, hi, hid⟩ := List.mem_map.mp hmem
    obtain ⟨hrow, hname, htag⟩ := Memory.mem_named_iff.mp (List.mem_reverse.mp hi)
    have hfound := hformed.instance?_eq_some_iff.mpr ⟨hrow, hid⟩
    exact ⟨i, (hcarries.findInstance_eq_some_iff hm).mpr hfound, hname, htag⟩
  · intro hnamed
    obtain ⟨i, hanswer, hname, htag⟩ := hnamed
    have hfound := (hcarries.findInstance_eq_some_iff hm).mp hanswer
    obtain ⟨hrow, hid⟩ := hformed.instance?_eq_some_iff.mp hfound
    have hmem := Memory.mem_named_iff.mpr ⟨hrow, hname, htag⟩
    exact List.mem_map.mpr ⟨i, List.mem_reverse.mpr hmem, hid⟩

/-- A store counts the identifiers of a name. -/
theorem answer_countInstances :
    (perform (.countInstances name appTag) s).answer = .ok (m.namedIds name appTag).length := by
  have hledger := (hcarries.lookedUp (.countInstances name appTag) hm trivial).1
  rw [hledger, Memory.length_namedIds]
  rfl

/-- A store answers with a window of the identifiers of a name. -/
theorem answer_pageInstances (start count : Nat) :
    (perform (.pageInstances name appTag start count) s).answer =
      .ok (((m.namedIds name appTag).drop start).take count) := by
  have hledger := (hcarries.lookedUp (.pageInstances name appTag start count) hm trivial).1
  rw [hledger, ← Memory.pageInstances_eq_window]
  rfl

/-- Pages that are read one after the other make up one long page. The ledger that is carried is the
same before each of them, though the store may have changed. -/
theorem answer_readPages (size pages start : Nat) :
    (readPages name appTag size pages start s).answer =
      .ok (((m.namedIds name appTag).drop start).take (pages * size)) := by
  induction pages generalizing s start with
  | zero => simp [readPages]
  | succ pages ih =>
    have hpage := answer_pageInstances hcarries hm name appTag start size
    have hnext := (hcarries.lookedUp (.pageInstances name appTag start size) hm trivial).2
    have hothers := ih hnext (start + size)
    have hjoin : ((m.namedIds name appTag).drop start).take ((pages + 1) * size) =
        ((m.namedIds name appTag).drop start).take size ++
          ((m.namedIds name appTag).drop (start + size)).take (pages * size) := by
      rw [Nat.succ_mul, Nat.add_comm (pages * size), List.take_add, List.drop_drop]
    rw [readPages, (bind_ok hpage _).1, (bind_ok hothers _).1, hjoin]
    rfl

/-- A store that carries a ledger pages through its instances. -/
theorem CarriesLedger.pagesInstances : PagesInstances s := by
  intro name appTag
  refine ⟨m.namedIds name appTag, ?_⟩
  exact {
    descending := (hcarries.wellFormed hm).descending_namedIds name appTag
    named := mem_namedIds_iff hcarries hm name appTag
    counted := answer_countInstances hcarries hm name appTag
    paged := answer_pageInstances hcarries hm name appTag
    read := by
      intro size pages henough
      rw [answer_readPages hcarries hm name appTag size pages 0, List.drop_zero,
        List.take_of_length_le henough] }

end Carried

/-- After every run of operations on either store, the pages of the instances of a name neither lose
nor repeat an instance. -/
theorem pagesInstances_reached (operations : List Operation) :
    PagesInstances (Operation.run Memory.empty operations) ∧
      ∀ {t : FileTree} {settings : StoreSettings} {place : Place} {l : OpenLedger},
        l.OpenedAt t settings place → PagesInstances (Operation.run l operations) :=
  reached_of_carries (fun hcarries _ _ => hcarries.pagesInstances) operations

/-- Instances of one name under two tags, with a gap where a third tag was purged, are paged through
by twos. -/
theorem pagesInstances_atStart :
    let operations := [.call (.createInstance "load" "nightly" none),
      .call (.createInstance "load" "weekly" none), .call (.createInstance "load" "purged" none),
      .call (.createInstance "copy" "nightly" none), .call (.createInstance "load" "nightly" none),
      .call (.purge "purged")]
    let first : InstanceId := ⟨1, by decide, by decide⟩
    let second : InstanceId := ⟨2, by decide, by decide⟩
    let fifth : InstanceId := ⟨5, by decide, by decide⟩
    let reached := Operation.run OpenLedger.atStart operations
    PagesInstances reached ∧
      (readPages "load" none 2 2 0 reached).answer = .ok [fifth, second, first] ∧
      (perform (.pageInstances "load" (some "nightly") 1 18446744073709551615) reached).answer =
        .ok [first] := by
  intro operations first second fifth reached
  refine ⟨(pagesInstances_reached operations).2 OpenLedger.openedAt_atStart, ?_, ?_⟩
  · exact eq_ok_of_toOption (by decide +kernel)
  · exact eq_ok_of_toOption (by decide +kernel)

end JobLedger
