/-
**The identity of a snapshot URL.**

A marker names the snapshot it stands for by `urlIdentity`: the path and the sorted query parameters
that no signer rewrites. The path ends at the first `?` or `#`, but the query is cut out at the
first `?` wherever it stands, so a question mark inside the fragment brings parameters in
(`fragment_changes_identity`). Where that brings none in, identities are equal exactly for the same
path and the same parameters (**`url_identity_names_iff`**).
-/

import ArcNode.Snapshots.Download
import Mathlib.Data.List.Sort

namespace ArcNode.Snapshots

open ArcNode.Lib

/-! ### Path and parameters -/

/-- What stands after the first question mark. -/
def queryOf (text : Text) : Text := ((splitOnce (ascii ['?']).contains text).map Prod.snd).getD []

/-- The parameters of a query that are not empty and not rewritten by a signer. -/
def paramsOf (query : Text) : List Text :=
  (query.splitOn 38).filter fun param => !param.isEmpty && !isSignatureParam param

/-- The parameters of a URL: the fragment goes first. -/
def params (url : Text) : List Text := paramsOf (queryOf (before ['#'] url))

/-- The parameters as `url_identity` finds them: the fragment goes last. -/
def kept (url : Text) : List Text := paramsOf (before ['#'] (queryOf url))

/-- The name of a path with parameters. -/
def named (path : Text) (parameters : List Text) : Text :=
  if parameters = [] then path
  else path ++ ascii ['?'] ++ List.intercalate (ascii ['&']) (parameters.insertionSort (· ≤ ·))

theorem urlIdentity_eq (url : Text) : urlIdentity url = named (urlPath url) (kept url) := by
  unfold urlIdentity kept queryOf
  cases splitOnce (ascii ['?']).contains url with
  | none | some halves => rfl

/-! ### Cutting a text -/

section Cutting

variable {separators : List Char} {text front rest : Text} {byte : Byte}

/-- A text without these separators. -/
def Free (separators : List Char) (text : Text) : Prop :=
  ∀ byte ∈ text, byte ∉ ascii separators

theorem free_nil : Free separators [] := fun _ member => nomatch member

theorem Free.fewer {others : List Char} (free : Free separators text) (sub : others ⊆ separators) :
    Free others text := fun byte member mark => free byte member (List.map_subset _ sub mark)

theorem cut_cases (separators : List Char) (text : Text) : Free separators text ∨
    ∃ front byte rest, Free separators front ∧ byte ∈ ascii separators ∧
      text = front ++ byte :: rest := by
  induction text with
  | nil => exact .inl free_nil
  | cons first text ih =>
    by_cases cuts : first ∈ ascii separators
    · exact .inr ⟨[], first, text, free_nil, cuts, rfl⟩
    · rcases ih with free | ⟨front, byte, rest, free, found, rfl⟩
      · exact .inl (List.forall_mem_cons.mpr ⟨cuts, free⟩)
      · exact .inr ⟨first :: front, byte, rest, List.forall_mem_cons.mpr ⟨cuts, free⟩, found, rfl⟩

theorem splitOnce_append (free : Free separators front) :
    splitOnce (ascii separators).contains (front ++ rest) =
      (splitOnce (ascii separators).contains rest).map fun halves => (front ++ halves.1, halves.2) := by
  induction front with
  | nil => exact Option.map_id'.symm
  | cons first front ih =>
    obtain ⟨clear, free⟩ := List.forall_mem_cons.mp free
    show (if (ascii separators).contains first then _ else (splitOnce _ (front ++ rest)).map _) = _
    rw [if_neg (by simpa using clear), ih free, Option.map_map]
    rfl

theorem before_append (free : Free separators front) (cuts : byte ∈ ascii separators) :
    before separators (front ++ byte :: rest) = front := by
  rw [before, splitOnce_append free, splitOnce, if_pos (by simpa using cuts)]
  exact List.append_nil front

theorem before_of_free (free : Free separators text) : before separators text = text := by
  have whole := @splitOnce_append separators text [] free
  rw [List.append_nil] at whole
  rw [before, whole]
  rfl

theorem free_before (separators : List Char) (text : Text) : Free separators
    (before separators text) := by
  rcases cut_cases separators text with free | ⟨front, byte, rest, free, cuts, rfl⟩
  · rwa [before_of_free free]
  · rwa [before_append free cuts]

theorem queryOf_append (free : Free ['?'] front) : queryOf (front ++ rest) = queryOf rest := by
  rw [queryOf, splitOnce_append free, Option.map_map]
  rfl

theorem queryOf_of_free (free : Free ['?'] text) : queryOf text = [] := by
  rw [← List.append_nil text, queryOf_append free]
  rfl

theorem free_queryOf (free : Free separators text) : Free separators (queryOf text) := by
  rcases cut_cases ['?'] text with none | ⟨front, byte, rest, none, cuts, rfl⟩
  · rw [queryOf_of_free none]
    exact free_nil
  · rw [queryOf_append none, queryOf, splitOnce, if_pos (by simpa using cuts)]
    exact fun other member => free other (List.mem_append_right _ (.tail _ member))

theorem mem_splitOn {piece : Text} (member : piece ∈ text.splitOn byte) :
    byte ∉ piece ∧ piece ⊆ text := by
  induction text generalizing piece with
  | nil =>
    obtain rfl := List.mem_singleton.mp member
    exact ⟨List.not_mem_nil, List.Subset.refl _⟩
  | cons first text ih =>
    rw [List.splitOn, List.splitOnP_cons_eq_if_modifyHead] at member
    split_ifs at member with cuts
    · rcases List.mem_cons.mp member with rfl | later
      · exact ⟨List.not_mem_nil, List.nil_subset _⟩
      · exact ⟨(ih later).1, List.subset_cons_of_subset _ (ih later).2⟩
    · cases pieces : text.splitOnP (· == byte) with
      | nil => exact absurd pieces (List.splitOnP_ne_nil _ _)
      | cons head tail =>
        rw [pieces, List.modifyHead_cons] at member
        have found := fun piece (listed : piece ∈ head :: tail) =>
          @ih piece (show piece ∈ text.splitOnP (· == byte) from pieces ▸ listed)
        rcases List.mem_cons.mp member with rfl | later
        · obtain ⟨absent, inside⟩ := found head List.mem_cons_self
          refine ⟨fun here => ?_, List.cons_subset_cons _ inside⟩
          rcases List.mem_cons.mp here with rfl | later
          · exact cuts (beq_self_eq_true byte)
          · exact absent later
        · obtain ⟨absent, inside⟩ := found piece (.tail _ later)
          exact ⟨absent, List.subset_cons_of_subset _ inside⟩

end Cutting

/-! ### The name of a path with parameters -/

/-- Parameters as they come out of a query. -/
def Listed (parameters : List Text) : Prop :=
  ∀ param ∈ parameters, (!param.isEmpty && !isSignatureParam param) = true ∧ 38 ∉ param ∧ Free ['#'] param

theorem listed_paramsOf {query : Text} (free : Free ['#'] query) : Listed (paramsOf query) := by
  intro param member
  obtain ⟨piece, good⟩ := List.mem_filter.mp member
  obtain ⟨absent, inside⟩ := mem_splitOn piece
  exact ⟨good, absent, fun byte here => free byte (inside here)⟩

theorem free_urlPath (url : Text) : Free ['?', '#'] (urlPath url) := free_before _ url

theorem listed_kept (url : Text) : Listed (kept url) := listed_paramsOf (free_before _ _)

theorem listed_params (url : Text) : Listed (params url) := listed_paramsOf
    (free_queryOf (free_before _ _))

variable {path : Text} {parameters : List Text}

theorem free_intercalate (listed : Listed parameters) :
    Free ['#'] (List.intercalate (ascii ['&']) parameters) := by
  induction parameters with
  | nil => exact free_nil
  | cons first rest ih =>
    obtain ⟨⟨-, -, free⟩, listedRest⟩ := List.forall_mem_cons.mp listed
    cases rest with
    | nil => simpa using free
    | cons second rest =>
      rw [List.intercalate_cons_cons]
      intro byte member
      rcases List.mem_append.mp member with front | later
      · rcases List.mem_append.mp front with inside | mark
        · exact free byte inside
        · exact List.mem_singleton.mp mark ▸ by decide
      · exact ih listedRest byte later

/-- A name can be taken apart again. -/
theorem named_spec (free : Free ['?', '#'] path) (listed : Listed parameters) :
    urlPath (named path parameters) = path ∧ Free ['#'] (named path parameters) ∧
      kept (named path parameters) = parameters.insertionSort (· ≤ ·) := by
  have noMark : Free ['?'] path := free.fewer (by simp)
  have noHash : Free ['#'] path := free.fewer (by simp)
  by_cases none : parameters = []
  · subst none
    refine ⟨before_of_free free, noHash, ?_⟩
    show paramsOf (before ['#'] (queryOf path)) = []
    rw [queryOf_of_free noMark]
    rfl
  · have sorted : Listed (parameters.insertionSort (· ≤ ·)) := fun param member =>
      listed param ((List.mem_insertionSort _).mp member)
    have joined : Free ['#'] (List.intercalate [38] _) := free_intercalate sorted
    have whole : named path parameters = path ++ 63 ::
        List.intercalate [38] (parameters.insertionSort (· ≤ ·)) := by
      rw [named, if_neg none, List.append_assoc]
      rfl
    have query : queryOf (named path parameters) =
        List.intercalate [38] (parameters.insertionSort (· ≤ ·)) := by
      rw [whole, queryOf_append noMark]
      rfl
    refine ⟨whole ▸ before_append free (by decide), ?_, ?_⟩
    · rw [whole]
      refine List.forall_mem_append.mpr ⟨noHash, List.forall_mem_cons.mpr ⟨by decide, joined⟩⟩
    · rw [kept, query, before_of_free joined, paramsOf, List.splitOn_intercalate 38
        (fun param member => (sorted param member).2.1) fun empty => none ?_]
      · exact List.filter_eq_self.mpr fun param member => (sorted param member).1
      · exact List.Perm.eq_nil (empty ▸ (List.perm_insertionSort _ parameters).symm)

theorem insertionSort_of_perm {others : List Text} (perm : parameters.Perm others) :
    parameters.insertionSort (· ≤ ·) = others.insertionSort (· ≤ ·) :=
  List.Perm.eq_of_sortedLE List.sortedLE_insertionSort List.sortedLE_insertionSort
    ((List.perm_insertionSort _ _).trans (perm.trans (List.perm_insertionSort _ _).symm))

theorem named_of_perm {others : List Text} (perm : parameters.Perm others) :
    named path parameters = named path others := by
  unfold named
  rw [insertionSort_of_perm perm]
  simp only [← List.length_eq_zero_iff, perm.length_eq]

/-- **What an identity keeps** is the path and the parameters found. -/
theorem urlIdentity_eq_iff (url other : Text) : urlIdentity url = urlIdentity other ↔
    urlPath url = urlPath other ∧ (kept url).Perm (kept other) := by
  rw [urlIdentity_eq, urlIdentity_eq]
  have first := named_spec (free_urlPath url) (listed_kept url)
  have second := named_spec (free_urlPath other) (listed_kept other)
  refine ⟨fun same => ?_, fun ⟨paths, perm⟩ => paths ▸ named_of_perm perm⟩
  refine ⟨first.1.symm.trans ((congrArg urlPath same).trans second.1), ?_⟩
  have sorts := first.2.2.symm.trans ((congrArg kept same).trans second.2.2)
  have back := List.perm_insertionSort (· ≤ ·) (kept other)
  exact (List.perm_insertionSort _ _).symm.trans (sorts.symm ▸ back)

/-! ### Fragments -/

/-- Two URLs of one snapshot: the same path, and the same parameters in some order. -/
def SameSnapshot (url other : Text) : Prop :=
  urlPath url = urlPath other ∧ (params url).Perm (params other)

/-- No question mark inside the fragment of a URL without a query brings parameters in. -/
def Clean (url : Text) : Prop := ∀ front fragment, url = front ++ 35 :: fragment →
  Free ['?', '#'] front → paramsOf (before ['#'] (queryOf fragment)) = []

/-- A URL with a fragment and no query. -/
theorem kept_of_fragment {front fragment : Text} (free : Free ['?', '#'] front) :
    params (front ++ 35 :: fragment) = [] ∧
      kept (front ++ 35 :: fragment) = paramsOf (before ['#'] (queryOf fragment)) := by
  have noMark : Free ['?'] front := free.fewer (by simp)
  constructor
  · rw [params, before_append (free.fewer (by simp)) (by decide), queryOf_of_free noMark]
    rfl
  · have hash : Free ['?'] [35] := List.forall_mem_singleton.mpr (by decide)
    rw [kept, queryOf_append noMark]
    exact congrArg (fun query => paramsOf (before ['#'] query)) (queryOf_append hash)

theorem kept_eq_params {url : Text} (clean : Clean url) : kept url = params url := by
  rcases cut_cases ['#'] url with free | ⟨front, mark, fragment, free, hash, rfl⟩
  · rw [kept, params, before_of_free free, before_of_free (free_queryOf free)]
  · obtain rfl : mark = 35 := List.mem_singleton.mp hash
    rcases cut_cases ['?'] front with none | ⟨path, mark, query, none, question, rfl⟩
    · have both : Free ['?', '#'] front := fun byte member separator => by
        rcases List.mem_cons.mp separator with rfl | last
        · exact none _ member (by decide)
        · exact free byte member last
      rw [(kept_of_fragment both).1, (kept_of_fragment both).2]
      exact clean front fragment rfl both
    · have after : Free ['#'] query := fun byte member => free byte (by simp [member])
      rw [kept, params, before_append free hash, List.append_assoc, queryOf_append none,
        queryOf_append none, List.cons_append, queryOf, queryOf, splitOnce, splitOnce,
        if_pos (by simpa using question), if_pos (by simpa using question)]
      exact congrArg paramsOf (before_append after hash)

theorem clean_of_free {url : Text} (free : Free ['#'] url) :
    Clean url := fun front fragment split _ =>
  absurd (show (35 : Byte) ∈ ascii ['#'] by decide) (free 35 (by simp [split]))

/-- **Identities name snapshots.** An identity is its own identity. A URL has the same identity as
the clean URLs of its snapshot, and as no others, exactly if it is clean itself. -/
theorem url_identity_names_iff (url : Text) : urlIdentity (urlIdentity url) = urlIdentity url ∧
    ((∀ other, Clean other → (urlIdentity url = urlIdentity other ↔ SameSnapshot url other)) ↔
      Clean url) := by
  have given := named_spec (free_urlPath url) (listed_kept url)
  refine ⟨?_, fun names front fragment split free => ?_, fun clean other cleanOther => ?_⟩
  · rw [urlIdentity_eq (urlIdentity url), urlIdentity_eq url, given.1, given.2.2]
    exact named_of_perm (List.perm_insertionSort _ _)
  · -- the URL is compared with the name of its own path and parameters
    obtain ⟨path, noHash, found⟩ := named_spec (free_urlPath url) (listed_params url)
    have clean := clean_of_free noHash
    have perm : (params url).Perm (params (named (urlPath url) (params url))) := by
      rw [← kept_eq_params clean, found]
      exact (List.perm_insertionSort _ _).symm
    have alike := ((urlIdentity_eq_iff _ _).mp ((names _ clean).mpr ⟨path.symm, perm⟩)).2
    rw [kept_eq_params clean] at alike
    have none := alike.trans perm.symm
    rw [split, (kept_of_fragment free).1, (kept_of_fragment free).2] at none
    exact none.eq_nil
  · rw [urlIdentity_eq_iff, kept_eq_params clean, kept_eq_params cleanOther]
    rfl

/-- **A fragment changes the identity**: `m#f?n` and `m` have the same path and no query. -/
theorem fragment_changes_identity : SameSnapshot (ascii ['m', '#', 'f', '?', 'n']) (ascii ['m']) ∧
      urlIdentity (ascii ['m', '#', 'f', '?', 'n']) ≠ urlIdentity (ascii ['m']) := by
  unfold SameSnapshot
  decide +kernel

end ArcNode.Snapshots
