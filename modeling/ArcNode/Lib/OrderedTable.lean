/-
**Ordered tables: finite maps kept in key order.**

A `Table K V` is the list of its entries in strictly increasing key order, so a table has one
representation and a scan visits the keys in order. `Table.ext_get` is the proof rule: two tables
with the same lookups are equal. Every operation has one lookup law (`get_insert`, `get_remove`,
`get_retain`, `get_mapValues`), and the two ends of a table are described by what they bound
(`last_eq_some`, `first_eq_some`).
-/

import Mathlib

namespace ArcNode.Lib

/-- A finite map, as its entries in strictly increasing key order. -/
structure Table (K V : Type*) [LinearOrder K] where
  entries : List (K × V)
  sorted : entries.Pairwise fun first second => first.1 < second.1

namespace Table

variable {K V W : Type*} [LinearOrder K] {table : Table K V} {entry : K × V} {key : K}

instance [DecidableEq V] : DecidableEq (Table K V) := fun first second =>
  decidable_of_iff (first.entries = second.entries) (by
    cases first; cases second; simp)

def empty : Table K V := ⟨[], List.Pairwise.nil⟩

instance : EmptyCollection (Table K V) := ⟨empty⟩

instance : Inhabited (Table K V) := ⟨empty⟩

def get (table : Table K V) (key : K) : Option V :=
  (table.entries.find? fun entry => entry.1 = key).map Prod.snd

def keys (table : Table K V) : List K := table.entries.map Prod.fst

def len (table : Table K V) : ℕ := table.entries.length

def first (table : Table K V) : Option (K × V) := table.entries.head?

def last (table : Table K V) : Option (K × V) := table.entries.getLast?

/-! ### Lookups -/

theorem keys_nodup (table : Table K V) : table.keys.Nodup := by
  rw [keys, List.Nodup, List.pairwise_map]
  exact table.sorted.imp fun less => ne_of_lt less

theorem eq_of_mem {first second : K × V} (here : first ∈ table.entries)
    (there : second ∈ table.entries) (same : first.1 = second.1) : first = second :=
  List.inj_on_of_nodup_map table.keys_nodup here there same

theorem get_eq_some {value : V} : table.get key = some value ↔ (key, value) ∈ table.entries := by
  constructor
  · intro found
    obtain ⟨entry, search, rfl⟩ := Option.map_eq_some_iff.mp found
    have same : entry.1 = key := by simpa using List.find?_some search
    have member := List.mem_of_find?_eq_some search
    rwa [← same]
  · intro member
    have present : (table.entries.find? fun entry => entry.1 = key).isSome := by
      rw [List.find?_isSome]
      exact ⟨_, member, by simp⟩
    obtain ⟨entry, search⟩ := Option.isSome_iff_exists.mp present
    have same : entry.1 = key := by simpa using List.find?_some search
    have equal := eq_of_mem (List.mem_of_find?_eq_some search) member same
    rw [get, search, equal]
    rfl

theorem get_eq_none : table.get key = none ↔ ∀ value, (key, value) ∉ table.entries := by
  rw [Option.eq_none_iff_forall_ne_some]
  exact forall_congr' fun value => not_congr get_eq_some

theorem mem_keys : key ∈ table.keys ↔ (table.get key).isSome := by
  rw [Option.isSome_iff_exists, keys, List.mem_map]
  constructor
  · rintro ⟨entry, member, rfl⟩
    exact ⟨entry.2, get_eq_some.mpr member⟩
  · rintro ⟨value, found⟩
    exact ⟨(key, value), get_eq_some.mp found, rfl⟩

/-- **Two tables with the same lookups are equal.** The entries are then a permutation of each
other, and a strictly sorted list is determined by its members. -/
theorem ext_get {first second : Table K V} (same : ∀ key, first.get key = second.get key) :
    first = second := by
  have members : ∀ entry, entry ∈ first.entries ↔ entry ∈ second.entries := fun entry => by
    rw [← get_eq_some, ← get_eq_some, same]
  have perm : first.entries.Perm second.entries :=
    (List.perm_ext_iff_of_nodup (List.Nodup.of_map _ first.keys_nodup)
      (List.Nodup.of_map _ second.keys_nodup)).mpr members
  have equal := perm.eq_of_pairwise (fun a b _ _ less greater => (lt_asymm less greater).elim)
    first.sorted second.sorted
  cases first; cases second
  simpa using equal

/-! ### Insertion and removal -/

/-- Insertion into an ordered entry list; an entry with the same key is replaced. -/
def insertEntry (key : K) (value : V) : List (K × V) → List (K × V)
  | [] => [(key, value)]
  | entry :: rest =>
    if key < entry.1 then (key, value) :: entry :: rest
    else if key = entry.1 then (key, value) :: rest
    else entry :: insertEntry key value rest

theorem mem_insertEntry {value : V} {entries : List (K × V)}
    (sorted : entries.Pairwise fun first second => first.1 < second.1) :
    entry ∈ insertEntry key value entries ↔
      entry = (key, value) ∨ (entry ∈ entries ∧ entry.1 ≠ key) := by
  induction entries with
  | nil => simp [insertEntry]
  | cons head rest ih =>
    obtain ⟨above, tail⟩ := List.pairwise_cons.mp sorted
    unfold insertEntry
    split_ifs with less same
    · constructor
      · intro member
        rcases List.mem_cons.mp member with equal | old
        · exact Or.inl equal
        · refine Or.inr ⟨old, ne_of_gt ?_⟩
          rcases List.mem_cons.mp old with rfl | inRest
          · exact less
          · exact less.trans (above _ inRest)
      · rintro (equal | ⟨old, _⟩)
        · exact List.mem_cons.mpr (Or.inl equal)
        · exact List.mem_cons_of_mem _ old
    · subst same
      constructor
      · intro member
        rcases List.mem_cons.mp member with equal | inRest
        · exact Or.inl equal
        · exact Or.inr ⟨List.mem_cons_of_mem _ inRest, ne_of_gt (above _ inRest)⟩
      · rintro (equal | ⟨old, other⟩)
        · exact List.mem_cons.mpr (Or.inl equal)
        · rcases List.mem_cons.mp old with rfl | inRest
          · exact (other rfl).elim
          · exact List.mem_cons_of_mem _ inRest
    · rw [List.mem_cons, ih tail, List.mem_cons]
      constructor
      · rintro (rfl | equal | ⟨inRest, other⟩)
        · exact Or.inr ⟨Or.inl rfl, fun equal => same equal.symm⟩
        · exact Or.inl equal
        · exact Or.inr ⟨Or.inr inRest, other⟩
      · rintro (equal | ⟨rfl | inRest, other⟩)
        · exact Or.inr (Or.inl equal)
        · exact Or.inl rfl
        · exact Or.inr (Or.inr ⟨inRest, other⟩)

theorem sorted_insertEntry (key : K) (value : V) {entries : List (K × V)}
    (sorted : entries.Pairwise fun first second => first.1 < second.1) :
    (insertEntry key value entries).Pairwise fun first second => first.1 < second.1 := by
  induction entries with
  | nil => simp [insertEntry]
  | cons head rest ih =>
    obtain ⟨above, tail⟩ := List.pairwise_cons.mp sorted
    unfold insertEntry
    split_ifs with less same
    · refine List.pairwise_cons.mpr ⟨fun entry member => ?_, sorted⟩
      rcases List.mem_cons.mp member with rfl | inRest
      · exact less
      · exact less.trans (above _ inRest)
    · subst same
      exact List.pairwise_cons.mpr ⟨above, tail⟩
    · refine List.pairwise_cons.mpr ⟨fun entry member => ?_, ih tail⟩
      rcases (mem_insertEntry tail).mp member with rfl | ⟨inRest, _⟩
      · exact lt_of_le_of_ne (not_lt.mp less) (Ne.symm same)
      · exact above _ inRest

def insert (table : Table K V) (key : K) (value : V) : Table K V :=
  ⟨insertEntry key value table.entries, sorted_insertEntry key value table.sorted⟩

/-- Keep the entries a predicate accepts. -/
def retain (table : Table K V) (keep : K → V → Bool) : Table K V :=
  ⟨table.entries.filter fun entry => keep entry.1 entry.2, table.sorted.filter _⟩

def remove (table : Table K V) (key : K) : Table K V :=
  table.retain fun other _ => other ≠ key

def mapValues (table : Table K V) (f : V → W) : Table K W :=
  ⟨table.entries.map fun entry => (entry.1, f entry.2), List.pairwise_map.mpr table.sorted⟩

theorem get_insert (table : Table K V) (key other : K) (value : V) :
    (table.insert key value).get other = if other = key then some value else table.get other := by
  apply Option.ext
  intro stored
  rw [get_eq_some, insert, mem_insertEntry table.sorted]
  by_cases same : other = key
  · subst same
    simp [eq_comm]
  · simp [same, get_eq_some]

@[simp] theorem get_insert_self (table : Table K V) (key : K) (value : V) :
    (table.insert key value).get key = some value := by
  rw [get_insert, if_pos rfl]

theorem get_insert_cases {other : K} {value found : V}
    (get : (table.insert key value).get other = some found) :
    other = key ∧ value = found ∨ table.get other = some found := by
  rw [get_insert] at get
  split_ifs at get with same
  · exact .inl ⟨same, Option.some.inj get⟩
  · exact .inr get

theorem get_insert_of_ne (table : Table K V) {key other : K} (value : V) (ne : other ≠ key) :
    (table.insert key value).get other = table.get other := by
  rw [get_insert, if_neg ne]

theorem get_retain (table : Table K V) (keep : K → V → Bool) (key : K) :
    (table.retain keep).get key = (table.get key).filter (keep key) := by
  apply Option.ext
  intro value
  rw [get_eq_some, retain, List.mem_filter, Option.filter_eq_some_iff, get_eq_some]

theorem get_of_get_retain {keep : K → V → Bool} {value : V}
    (found : (table.retain keep).get key = some value) : table.get key = some value := by
  rw [get_retain, Option.filter_eq_some_iff] at found
  exact found.1

theorem get_remove (table : Table K V) (key other : K) :
    (table.remove key).get other = if other = key then none else table.get other := by
  rw [remove, get_retain]
  by_cases same : other = key
  · simp [same]
  · cases table.get other <;> simp [same]

theorem get_mapValues (table : Table K V) (f : V → W) (key : K) :
    (table.mapValues f).get key = (table.get key).map f := by
  apply Option.ext
  intro value
  rw [get_eq_some, mapValues, List.mem_map, Option.map_eq_some_iff]
  constructor
  · rintro ⟨entry, member, equal⟩
    obtain ⟨rfl, rfl⟩ := Prod.mk.inj equal
    exact ⟨entry.2, get_eq_some.mpr member, rfl⟩
  · rintro ⟨old, found, rfl⟩
    exact ⟨(key, old), get_eq_some.mp found, rfl⟩

theorem mem_retain {keep : K → V → Bool} :
    entry ∈ (table.retain keep).entries ↔ entry ∈ table.entries ∧ keep entry.1 entry.2 = true :=
  List.mem_filter

theorem mem_insert {value : V} : entry ∈ (table.insert key value).entries ↔
      entry = (key, value) ∨ (entry ∈ table.entries ∧ entry.1 ≠ key) :=
  mem_insertEntry table.sorted

theorem mapValues_id (table : Table K V) (f : V → V)
    (fixed : ∀ entry ∈ table.entries, f entry.2 = entry.2) : table.mapValues f = table := by
  refine ext_get fun key => ?_
  rw [get_mapValues]
  cases found : table.get key with
  | none => rfl
  | some value => rw [Option.map_some, fixed (key, value) (get_eq_some.mp found)]

/-! ### Rewriting some of the values -/

def mapIf (table : Table K V) (select : K → Bool) (f : V → V) : Table K V :=
  ⟨table.entries.map fun entry => (entry.1, if select entry.1 then f entry.2 else entry.2),
    List.pairwise_map.mpr table.sorted⟩

/-- Store every entry of a list, in order. -/
def insertAll (table : Table K V) (batch : List (K × V)) : Table K V :=
  batch.foldl (fun written entry => written.insert entry.1 entry.2) table

theorem get_mapIf (table : Table K V) (select : K → Bool) (f : V → V) (key : K) :
    (table.mapIf select f).get key = (table.get key).map (if select key then f else id) := by
  apply Option.ext
  intro value
  rw [get_eq_some, mapIf, List.mem_map, Option.map_eq_some_iff]
  constructor
  · rintro ⟨entry, member, equal⟩
    obtain ⟨rfl, rfl⟩ := Prod.mk.inj equal
    refine ⟨entry.2, get_eq_some.mpr member, ?_⟩
    split_ifs <;> rfl
  · rintro ⟨old, found, rfl⟩
    refine ⟨(key, old), get_eq_some.mp found, ?_⟩
    split_ifs <;> rfl

theorem keys_mapIf (table : Table K V) (select : K → Bool) (f : V → V) :
    (table.mapIf select f).keys = table.keys := by
  simp [keys, mapIf, Function.comp_def]

theorem keys_mapValues (table : Table K V) (f : V → W) : (table.mapValues f).keys = table.keys := by
  simp [keys, mapValues, Function.comp_def]

theorem mapValues_injective {f : V → W} (injective : Function.Injective f) :
    Function.Injective fun table : Table K V => table.mapValues f := by
  intro first second same
  refine ext_get fun key => Option.map_injective injective ?_
  rw [← get_mapValues, ← get_mapValues]
  exact congrArg (fun table => table.get key) same

theorem mapIf_congr {first second : K → Bool} (f : V → V)
    (same : ∀ key ∈ table.keys, first key = second key) :
    table.mapIf first f = table.mapIf second f := by
  refine ext_get fun key => ?_
  rw [get_mapIf, get_mapIf]
  cases found : table.get key with
  | none => rfl
  | some value => rw [same key (mem_keys.mpr (by rw [found]; rfl))]

theorem mapIf_mapIf (table : Table K V) {first second : K → Bool} (f : V → V)
    (disjoint : ∀ key, first key = true → second key = false) :
    (table.mapIf first f).mapIf second f = table.mapIf (fun key => first key || second key) f := by
  refine ext_get fun key => ?_
  rw [get_mapIf, get_mapIf, get_mapIf, Option.map_map]
  cases selected : first key with
  | false => cases second key <;> simp
  | true => simp [disjoint key selected]

theorem mapIf_eq_mapValues {select : K → Bool} (f : V → V)
    (all : ∀ key ∈ table.keys, select key = true) : table.mapIf select f = table.mapValues f := by
  refine ext_get fun key => ?_
  rw [get_mapIf, get_mapValues]
  cases found : table.get key with
  | none => rfl
  | some value => rw [all key (mem_keys.mpr (by rw [found]; rfl)), if_pos rfl]

theorem mapIf_eq_self {select : K → Bool} (f : V → V)
    (nothing : ∀ key ∈ table.keys, select key = false) : table.mapIf select f = table := by
  refine ext_get fun key => ?_
  rw [get_mapIf]
  cases found : table.get key with
  | none => rfl
  | some value => simp [nothing key (mem_keys.mpr (by rw [found]; rfl))]

theorem insertAll_map_eq_mapIf (f : V → V) {batch : List (K × V)}
    (present : ∀ entry ∈ batch, entry ∈ table.entries) (distinct : (batch.map Prod.fst).Nodup) :
    table.insertAll (batch.map fun entry => (entry.1, f entry.2)) =
      table.mapIf (fun key => key ∈ batch.map Prod.fst) f := by
  induction batch generalizing table with
  | nil => exact (mapIf_eq_self f fun _ _ => by simp).symm
  | cons entry rest ih =>
    obtain ⟨fresh, distinctRest⟩ := List.nodup_cons.mp distinct
    have stays : ∀ other ∈ rest, other ∈ (table.insert entry.1 (f entry.2)).entries := by
      intro other member
      have different : other.1 ≠ entry.1 := fun same => fresh (same ▸ List.mem_map_of_mem member)
      exact mem_insert.mpr (Or.inr ⟨present other (List.mem_cons_of_mem _ member), different⟩)
    have step := ih stays distinctRest
    rw [insertAll] at step
    rw [insertAll, List.map_cons, List.foldl_cons, step]
    refine ext_get fun key => ?_
    rw [get_mapIf, get_mapIf, get_insert]
    by_cases same : key = entry.1
    · have found := get_eq_some.mpr (present entry List.mem_cons_self)
      subst same
      simp [fresh, found]
    · have later : key ∈ (entry :: rest).map Prod.fst ↔ key ∈ rest.map Prod.fst := by
        rw [List.map_cons, List.mem_cons, or_iff_right same]
      simp only [if_neg same, decide_eq_true_eq, later]

/-! ### The two ends -/

theorem last_eq_some : table.last = some entry ↔
      entry ∈ table.entries ∧ ∀ other ∈ table.entries, other.1 ≤ entry.1 := by
  constructor
  · intro found
    obtain ⟨front, split⟩ := List.getLast?_eq_some_iff.mp found
    have sorted := table.sorted
    rw [split, List.pairwise_append] at sorted
    refine ⟨by rw [split]; simp, fun other member => ?_⟩
    rw [split, List.mem_append, List.mem_singleton] at member
    rcases member with before | rfl
    · exact (sorted.2.2 other before entry (List.mem_singleton_self _)).le
    · exact le_rfl
  · rintro ⟨member, bound⟩
    cases found : table.last with
    | none =>
      rw [last, List.getLast?_eq_none_iff] at found
      rw [found] at member
      cases member
    | some top =>
      have topMember : top ∈ table.entries := List.mem_of_getLast? found
      obtain ⟨front, split⟩ := List.getLast?_eq_some_iff.mp found
      have sorted := table.sorted
      rw [split, List.pairwise_append] at sorted
      have above : entry.1 ≤ top.1 := by
        rw [split, List.mem_append, List.mem_singleton] at member
        rcases member with before | rfl
        · exact (sorted.2.2 entry before top (List.mem_singleton_self _)).le
        · exact le_rfl
      rw [eq_of_mem topMember member (le_antisymm (bound top topMember) above)]

theorem last_eq_none : table.last = none ↔ table.entries = [] :=
  List.getLast?_eq_none_iff

theorem first_eq_some : table.first = some entry → entry ∈ table.entries ∧
      ∀ other ∈ table.entries, entry.1 ≤ other.1 := by
  intro found
  obtain ⟨rest, split⟩ := List.head?_eq_some_iff.mp found
  have sorted := table.sorted
  rw [split, List.pairwise_cons] at sorted
  refine ⟨by rw [split]; exact List.mem_cons_self, fun other member => ?_⟩
  rw [split] at member
  rcases List.mem_cons.mp member with rfl | later
  · exact le_rfl
  · exact (sorted.1 other later).le

/-! ### The first entry with a property -/

/-- The first entry, in key order, whose key has a property. -/
def findFirst (table : Table K V) (wanted : K → Bool) : Option (K × V) :=
  table.entries.find? fun entry => wanted entry.1

theorem findFirst_le {wanted : K → Bool} {entry other : K × V}
    (found : table.findFirst wanted = some entry) (member : other ∈ table.entries)
    (fits : wanted other.1 = true) : entry.1 ≤ other.1 := by
  obtain ⟨-, front, back, split, before⟩ := List.find?_eq_some_iff_append.mp found
  have sorted := table.sorted
  rw [split, List.pairwise_append, List.pairwise_cons] at sorted
  rw [split, List.mem_append, List.mem_cons] at member
  rcases member with early | rfl | late
  · have unfit := before other early
    rw [fits] at unfit
    cases unfit
  · exact le_rfl
  · exact (sorted.2.1.1 other late).le

theorem findFirst_eq_some {wanted : K → Bool} :
    table.findFirst wanted = some entry ↔ entry ∈ table.entries ∧ wanted entry.1 = true ∧
      ∀ other ∈ table.entries, wanted other.1 = true → entry.1 ≤ other.1 := by
  constructor
  · intro found
    have holds := (List.find?_eq_some_iff_append.mp found).1
    exact ⟨List.mem_of_find?_eq_some found, holds, fun other => findFirst_le found⟩
  · rintro ⟨member, holds, least⟩
    cases found : table.findFirst wanted with
    | none => exact absurd holds (List.find?_eq_none.mp found entry member)
    | some first =>
      have present := List.mem_of_find?_eq_some found
      have fits := (List.find?_eq_some_iff_append.mp found).1
      have below := findFirst_le found member holds
      rw [eq_of_mem present member (le_antisymm below (least first present fits))]

theorem findFirst_eq_none {wanted : K → Bool} :
    table.findFirst wanted = none ↔ ∀ entry ∈ table.entries, wanted entry.1 ≠ true :=
  List.find?_eq_none

/-! ### Ranges of keys -/

/-- Filter the entries with a key in `[low, high)`; the others stay. -/
def retainIn (table : Table K V) (low high : K) (keep : K → V → Bool) : Table K V :=
  table.retain fun key value => if low ≤ key ∧ key < high then keep key value else true

def countIn (table : Table K V) (low high : K) : ℕ :=
  table.entries.countP fun entry => low ≤ entry.1 ∧ entry.1 < high

/-- The table without the entries with a key in `[low, high)`. -/
def dropIn (table : Table K V) (low high : K) : Table K V :=
  table.retainIn low high fun _ _ => false

theorem mem_dropIn {low high : K} : entry ∈ (table.dropIn low high).entries ↔
      entry ∈ table.entries ∧ (low ≤ entry.1 → high ≤ entry.1) := by
  rw [dropIn, retainIn, mem_retain]
  refine and_congr_right fun _ => ?_
  split_ifs with inside
  · simp [inside.1, inside.2]
  · simp only [true_iff]
    intro above
    exact not_lt.mp fun below => inside ⟨above, below⟩

theorem ext_mem {first second : Table K V}
    (same : ∀ entry, entry ∈ first.entries ↔ entry ∈ second.entries) : first = second := by
  refine ext_get fun key => Option.ext fun value => ?_
  rw [get_eq_some, get_eq_some, same]

theorem dropIn_dropIn (table : Table K V) {low middle high : K} (below : low ≤ middle)
    (above : middle ≤ high) :
    (table.dropIn middle high).dropIn low middle = table.dropIn low high := by
  refine ext_mem fun entry => ?_
  rw [mem_dropIn, mem_dropIn, mem_dropIn, and_assoc]
  refine and_congr_right fun _ => ⟨?_, ?_⟩
  · rintro ⟨upper, lower⟩ least
    exact upper (lower least)
  · intro outside
    exact ⟨fun least => outside (below.trans least), fun least => above.trans (outside least)⟩

theorem dropIn_self (table : Table K V) (key : K) : table.dropIn key key = table :=
  ext_mem fun _ => by simp [mem_dropIn]

theorem countIn_self (table : Table K V) (key : K) : table.countIn key key = 0 := by
  rw [countIn, List.countP_eq_zero]
  intro entry _
  simp

theorem countIn_add (table : Table K V) {low middle high : K} (below : low ≤ middle)
    (above : middle ≤ high) :
    table.countIn middle high + table.countIn low middle = table.countIn low high := by
  unfold countIn
  induction table.entries with
  | nil => rfl
  | cons entry rest ih =>
    simp only [List.countP_cons, decide_eq_true_eq]
    have split : (if middle ≤ entry.1 ∧ entry.1 < high then 1 else 0) +
        (if low ≤ entry.1 ∧ entry.1 < middle then 1 else 0) =
          if low ≤ entry.1 ∧ entry.1 < high then 1 else 0 := by
      rcases lt_or_ge entry.1 middle with less | more
      · simp [less, not_le.mpr less, less.trans_le above]
      · simp [more, not_lt.mpr more, below.trans more]
    omega

theorem countIn_dropIn (table : Table K V) (low middle high : K) :
    (table.dropIn middle high).countIn low middle = table.countIn low middle := by
  rw [countIn, countIn, dropIn, retainIn, retain, List.countP_filter]
  refine List.countP_congr fun entry _ => ?_
  rcases lt_or_ge entry.1 middle with less | more
  · simp [less, not_le.mpr less]
  · simp [not_lt.mpr more]

theorem retain_eq_self_iff {keep : K → V → Bool} :
    table.retain keep = table ↔ ∀ entry ∈ table.entries, keep entry.1 entry.2 = true := by
  constructor
  · intro same entry member
    rw [← same, mem_retain] at member
    exact member.2
  · intro kept
    exact ext_mem fun entry => mem_retain.trans (and_iff_left_of_imp (kept entry))

/-- **A drop reaches everything from `low` on exactly when no key lies past its end.** -/
theorem dropIn_eq_retain_iff {low high : K} {keep : K → V → Bool}
    (below : ∀ key value, keep key value = true ↔ key < low) :
    table.dropIn low high = table.retain keep ↔ ∀ key ∈ table.keys, low ≤ key → key < high := by
  constructor
  · intro same key present least
    obtain ⟨entry, member, rfl⟩ := List.mem_map.mp present
    by_contra beyond
    have kept : entry ∈ (table.dropIn low high).entries :=
      mem_dropIn.mpr ⟨member, fun _ => not_lt.mp beyond⟩
    rw [same, mem_retain, below] at kept
    exact absurd kept.2 (not_lt.mpr least)
  · intro reached
    refine ext_mem fun entry => ?_
    rw [mem_dropIn, mem_retain, below]
    refine and_congr_right fun member => ⟨fun outside => ?_, fun less least => ?_⟩
    · by_contra least
      have inside := reached entry.1 (List.mem_map_of_mem member) (not_lt.mp least)
      exact absurd inside (not_lt.mpr (outside (not_lt.mp least)))
    · exact absurd less (not_lt.mpr least)

theorem len_dropIn_add (table : Table K V) (low high : K) :
    (table.dropIn low high).len + table.countIn low high = table.len := by
  rw [len, dropIn, retainIn, retain, ← List.countP_eq_length_filter, countIn, len,
    table.entries.length_eq_countP_add_countP
      fun entry => if low ≤ entry.1 ∧ entry.1 < high then false else true]
  congr 1
  refine List.countP_congr fun entry _ => ?_
  by_cases inside : low ≤ entry.1 ∧ entry.1 < high <;> simp [inside]

/-! ### The keys of a changed table -/

theorem mem_keys_insert {key other : K} {value : V} :
    other ∈ (table.insert key value).keys ↔ other = key ∨ other ∈ table.keys := by
  rw [mem_keys, mem_keys, get_insert]
  by_cases same : other = key
  · simp [same]
  · simp [same]

theorem mem_keys_remove {key other : K} :
    other ∈ (table.remove key).keys ↔ other ≠ key ∧ other ∈ table.keys := by
  rw [mem_keys, mem_keys, get_remove]
  by_cases same : other = key
  · simp [same]
  · simp [same]

theorem keys_retain_sublist (table : Table K V) (keep : K → V → Bool) :
    (table.retain keep).keys.Sublist table.keys :=
  List.filter_sublist.map Prod.fst

theorem keys_insert_perm (value : V)
    (fresh : table.get key = none) : (table.insert key value).keys.Perm (key :: table.keys) := by
  have absent : key ∉ table.keys := by
    rw [mem_keys, fresh]
    simp
  refine (List.perm_ext_iff_of_nodup (keys_nodup _)
    (List.nodup_cons.mpr ⟨absent, table.keys_nodup⟩)).mpr fun other => ?_
  rw [mem_keys_insert, List.mem_cons]

theorem keys_insert_perm_of_isSome (value : V)
    (live : (table.get key).isSome = true) : (table.insert key value).keys.Perm table.keys := by
  refine (List.perm_ext_iff_of_nodup (keys_nodup _) table.keys_nodup).mpr fun other => ?_
  rw [mem_keys_insert]
  refine ⟨?_, .inr⟩
  rintro (rfl | there)
  · exact mem_keys.mpr live
  · exact there

theorem keys_remove_perm (live : key ∈ table.keys) :
    table.keys.Perm (key :: (table.remove key).keys) := by
  have absent : key ∉ (table.remove key).keys := by simp [mem_keys_remove]
  refine (List.perm_ext_iff_of_nodup table.keys_nodup
    (List.nodup_cons.mpr ⟨absent, keys_nodup _⟩)).mpr fun other => ?_
  rw [List.mem_cons, mem_keys_remove]
  by_cases same : other = key
  · simp [same, live]
  · simp [same]

theorem len_eq_length_keys (table : Table K V) : table.len = table.keys.length :=
  (List.length_map _).symm

theorem len_remove_add_one (live : key ∈ table.keys) : (table.remove key).len + 1 = table.len := by
  rw [len_eq_length_keys, len_eq_length_keys, (keys_remove_perm live).length_eq, List.length_cons]

theorem len_retain_le (table : Table K V) (keep : K → V → Bool) :
    (table.retain keep).len ≤ table.len := by
  rw [len_eq_length_keys, len_eq_length_keys]
  exact (keys_retain_sublist table keep).length_le

end Table

end ArcNode.Lib
