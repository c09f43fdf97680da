import Docsmith.Proofs.Text.Search
import Docsmith.Proofs.Text.Trim
import Docsmith.Source.Registry

/-!
# Entries of a registry

A type is asked for by itself, with white space in any places, or as the entry it gets. An entry is
known by what stands between its first and its last angle bracket, so the brackets of a type inside
it make no difference.

* `registeredName_entryOf`: what an entry is known by;
* `AsksFor.registeredName_eq`: the ways to ask for a type lead to one name;
* `newEntries_keys`, `newEntries_skip`: each name gets one entry, by induction on the types;
* `registerTypes_eq`, `extended_eq_ok`, `registerTypes_eq_error`: a registry gets the new entries,
  stays as it is, or has no array to put them in;
* `registerTypes_once`: so a type is registered once.
-/

namespace Docsmith.Source

open Docsmith.Text

variable {t raw : String} {known : List (List Char)} {types front back : List String}

/-! ## Entries -/

/-- How entries start. -/
def entryStart : List Char := ['T', 'y', 'p', 'e', 'I', 'd', ':', ':', 'o', 'f']

/-- The entry of a type. -/
def entryOf (name : List Char) : List Char :=
  entryStart ++ ':' :: ':' :: '<' :: (name ++ ['>', '(', ')'])

def isParen (c : Char) : Bool := c = '(' || c = ')'

theorem entryText_eq (raw : String) : entryText raw =
    if entryStart <+: trimWhile isWhite raw.toList then trimWhile isWhite raw.toList
    else entryOf (trimWhile isParen (trimWhile isWhite raw.toList)) := by
  have hstart : "TypeId::of".toList = entryStart := by decide +kernel
  have hfront : "TypeId::of::<".toList = entryStart ++ [':', ':', '<'] := by decide +kernel
  have hback : ">()".toList = ['>', '(', ')'] := by decide +kernel
  rw [entryText, hstart, hfront, hback]
  simp only [← beginsWith_iff]
  rfl

theorem betweenAngles_append {front inner back : List Char} (hfront : '<' ∉ front)
    (hback : '>' ∉ back) :
    betweenAngles (front ++ '<' :: (inner ++ '>' :: back)) = inner := by
  have hdrop {x : Char} {as bs : List Char} (h : x ∉ as) :
      ((as ++ x :: bs).dropWhile (· ≠ x)).drop 1 = bs := by
    rw [List.dropWhile_append_of_pos (fun a ha => by simpa using fun heq : a = x => h (heq ▸ ha)),
      List.dropWhile_cons_of_neg (by simp)]
    rfl
  rw [betweenAngles, hdrop hfront, if_pos (by simp), List.reverse_append, List.reverse_cons,
    List.append_assoc, List.singleton_append, hdrop (by simpa using hback), List.reverse_reverse]

theorem registeredName_entryOf (name : List Char) :
    registeredName (entryOf name) = unspaced name := by
  have hentry : entryOf name =
      (entryStart ++ [':', ':']) ++ '<' :: (name ++ '>' :: ['(', ')']) := by
    rw [entryOf, List.append_assoc]
    rfl
  rw [registeredName, hentry, betweenAngles_append (by decide) (by decide), unspaced]

theorem isTrim_entryOf (name : List Char) : IsTrim isWhite (entryOf name) := by
  refine ⟨fun c hc => ?_, fun c hc => ?_⟩
  · obtain rfl := Option.some.inj hc
    rfl
  · have hend : entryOf name =
        (entryStart ++ ':' :: ':' :: '<' :: (name ++ ['>', '('])) ++ [')'] := by
      simp [entryOf]
    rw [hend, List.getLast?_concat] at hc
    obtain rfl := Option.some.inj hc
    rfl

/-- An entry is its own entry. -/
theorem entryText_entryText (raw : String) :
    entryText (String.ofList (entryText raw)) = entryText raw := by
  have hentry : IsTrim isWhite (entryText raw) ∧ entryStart <+: entryText raw := by
    rw [entryText_eq]
    split
    · rename_i h
      exact ⟨isTrim_trimWhile .., h⟩
    · exact ⟨isTrim_entryOf _, List.prefix_append ..⟩
  rw [entryText_eq (String.ofList _), String.toList_ofList, hentry.1.trimWhile_eq, if_pos hentry.2]

/-! ## Types -/

/-- Without its white space the text is no entry, and no parenthesis stands at its ends. -/
structure IsTypeText (cs : List Char) : Prop where
  noEntry : ¬entryStart <+: unspaced cs
  bare : IsTrim isParen (unspaced cs)

instance (cs : List Char) : Decidable (IsTypeText cs) :=
  decidable_of_iff (¬entryStart <+: unspaced cs ∧ IsTrim isParen (unspaced cs))
    ⟨fun h => ⟨h.1, h.2⟩, fun h => ⟨h.noEntry, h.bare⟩⟩

/-- The entry of a type holds its text. -/
theorem IsTypeText.entryText_eq (h : IsTypeText raw.toList) :
    entryText raw = entryOf (trimWhile isWhite raw.toList) := by
  obtain ⟨hnone, hhead, hlast⟩ := h
  have htrim := isTrim_trimWhile isWhite raw.toList
  rw [← unspaced_trim] at hnone hhead hlast
  rw [head?_unspaced htrim.head] at hhead
  rw [getLast?_unspaced htrim.last] at hlast
  have hnot : ¬entryStart <+: trimWhile isWhite raw.toList := by
    rintro ⟨rest, hrest⟩
    rw [← hrest, unspaced_append] at hnone
    exact hnone (List.prefix_append ..)
  rw [Source.entryText_eq, if_neg hnot, IsTrim.trimWhile_eq ⟨hhead, hlast⟩]

/-- A text that asks for a type: the type with its white space in any places, or an entry of it. -/
inductive AsksFor (t : String) : String → Prop
  | type {s : String} : unspaced s.toList = unspaced t.toList → AsksFor t s
  | entry {s : String} {name : List Char} :
      unspaced name = unspaced t.toList → trimWhile isWhite s.toList = entryOf name → AsksFor t s

/-- The ways to ask for a type lead to one name. -/
theorem AsksFor.registeredName_eq {s : String} (h : AsksFor t s) (ht : IsTypeText t.toList) :
    registeredName (entryText s) = unspaced t.toList := by
  cases h with
  | type hs =>
    have hs' : IsTypeText s.toList := ⟨hs ▸ ht.noEntry, hs ▸ ht.bare⟩
    rw [hs'.entryText_eq, registeredName_entryOf, unspaced_trim, hs]
  | @entry name hname hs =>
    have hstart : entryStart <+: entryOf name := List.prefix_append ..
    rw [entryText_eq, hs, if_pos hstart, registeredName_entryOf, hname]

/-! ## New entries -/

/-- What an entry is known by when a type is asked for. -/
def askedName (s : String) : List Char := registeredName (entryText s)

theorem newEntries_cons (known : List (List Char)) (s : String) (rest : List String) :
    newEntries known (s :: rest) =
      if askedName s ∈ known then newEntries known rest
      else entryText s :: newEntries (askedName s :: known) rest := by
  rw [newEntries, askedName]
  simp only [List.contains_iff_mem]

/-- Each name that is asked for and not known gets one entry. -/
theorem newEntries_keys (known : List (List Char)) (types : List String) :
    ((newEntries known types).map registeredName).Nodup ∧
      ∀ k, k ∈ (newEntries known types).map registeredName ↔
        k ∈ types.map askedName ∧ k ∉ known := by
  induction types generalizing known with
  | nil => exact ⟨.nil, fun k => by simp [newEntries]⟩
  | cons s rest ih =>
    rw [newEntries_cons]
    split
    · rename_i hs
      obtain ⟨hnodup, hmem⟩ := ih known
      refine ⟨hnodup, fun k => ?_⟩
      rw [hmem, List.map_cons, List.mem_cons]
      refine and_congr_left fun hk => (or_iff_right ?_).symm
      intro h
      exact hk (by rwa [h])
    · rename_i hs
      obtain ⟨hnodup, hmem⟩ := ih (askedName s :: known)
      rw [List.map_cons, List.nodup_cons]
      refine ⟨⟨fun h => ((hmem _).1 h).2 (List.mem_cons_self ..), hnodup⟩, fun k => ?_⟩
      rw [List.mem_cons, hmem, List.map_cons, List.mem_cons, List.mem_cons]
      change k = askedName s ∨ _ ↔ _
      by_cases hk : k = askedName s
      · simp [hk, hs]
      · simp [hk]

theorem newEntries_sublist (known : List (List Char)) (types : List String) :
    (newEntries known types).Sublist (types.map entryText) := by
  induction types generalizing known with
  | nil => exact .slnil
  | cons s rest ih =>
    rw [newEntries_cons, List.map_cons]
    split
    · exact (ih known).cons _
    · exact (ih _).cons_cons _

/-- A type that is known, or was asked for before, makes no difference. -/
theorem newEntries_skip {s : String}
    (h : askedName s ∈ known ∨ askedName s ∈ front.map askedName) :
    newEntries known (front ++ s :: back) = newEntries known (front ++ back) := by
  induction front generalizing known with
  | nil =>
    have hs : askedName s ∈ known := h.resolve_right (by simp)
    rw [List.nil_append, List.nil_append, newEntries_cons, if_pos hs]
  | cons a front ih =>
    rw [List.cons_append, List.cons_append, newEntries_cons, newEntries_cons]
    rw [List.map_cons, List.mem_cons] at h
    split
    · rename_i ha
      refine ih ?_
      rcases h with h | h | h
      · exact .inl h
      · exact .inl (by rwa [h])
      · exact .inr h
    · rw [ih]
      rcases h with h | h | h
      · exact .inl (List.mem_cons_of_mem _ h)
      · exact .inl (List.mem_cons.2 (.inl h))
      · exact .inr h

/-! ## Registries -/

/-- What the entries of an array are known by. -/
def knownNames (array : Located) : List (List Char) :=
  (elements array).map fun e => registeredName e.chars

/-- The edit that puts entries behind those of an array. -/
def extension (source : String) (array : Located) (closing : Leaf) (items : List (List Char)) :
    Edit :=
  (File.read source).appendItems source.toList closing.start items
    ((elements array).head?.bind (File.read source).indentOf?)

/-- A source with entries behind those of an array. -/
def extended (source binding : String) (array : Located) (items : List (List Char)) :
    Except Error Revision :=
  if items.isEmpty then .ok (.unchanged source)
  else
    match array.token? .rBrack with
    | some closing =>
      .ok ⟨source,
        String.ofList (Edit.applyAll source.toList [extension source array closing items])⟩
    | none => .error (openArray binding)

/-- A registry is extended by the entries of the types its array lacks. -/
theorem registerTypes_eq (source binding : String) (types : List String) :
    registerTypes source binding types =
      match registryArray? (File.read source) binding with
      | some array => extended source binding array (newEntries (knownNames array) types)
      | none => .error (noArray binding) := by
  unfold registerTypes extended knownNames extension
  dsimp only
  cases registryArray? (File.read source) binding with
  | none => rfl
  | some array =>
    dsimp only
    split
    · rfl
    · cases array.token? .rBrack <;> rfl

theorem extended_eq_ok {source binding : String} {array : Located} {items : List (List Char)}
    {r : Revision} (h : extended source binding array items = .ok r) :
    r.before = source ∧ (items = [] ∧ r.after = source ∨
      items ≠ [] ∧ ∃ closing, array.token? .rBrack = some closing ∧ r.after =
        String.ofList (Edit.applyAll source.toList [extension source array closing items])) := by
  rw [extended] at h
  split at h
  · rename_i hi
    obtain rfl := Except.ok.inj h
    exact ⟨rfl, .inl ⟨List.isEmpty_iff.1 hi, rfl⟩⟩
  · rename_i hi
    split at h
    · rename_i closing hc
      obtain rfl := Except.ok.inj h
      exact ⟨rfl, .inr ⟨fun hnil => hi (List.isEmpty_iff.2 hnil), closing, hc, rfl⟩⟩
    · nomatch h

theorem registerTypes_eq_error {source binding : String} {e : Error}
    (h : registerTypes source binding types = .error e) :
    e = noArray binding ∨ e = openArray binding := by
  rw [registerTypes_eq] at h
  split at h
  · rw [extended] at h
    split at h
    · nomatch h
    · split at h
      · nomatch h
      · exact .inr (Except.error.inj h).symm
  · exact .inl (Except.error.inj h).symm

/-- A type is one entry, however its white space stands, and whether it is asked for by itself or as
an entry: it is known by its text without white space. So asking for it once more makes no
difference, nor does asking for it where the array has it. And no two entries that an array gets are
known by one name, or by one that the array has already, whatever the types are. -/
theorem registerTypes_once {t : String} (ht : IsTypeText t.toList) :
    (∀ s, AsksFor t s → registeredName (entryText s) = unspaced t.toList) ∧
    (∀ name, registeredName (entryOf name) = unspaced name) ∧
    (∀ s, entryText (String.ofList (entryText s)) = entryText s) ∧
    (∀ source binding front s middle s' back, AsksFor t s → AsksFor t s' →
      registerTypes source binding (front ++ s :: (middle ++ s' :: back)) =
        registerTypes source binding (front ++ s :: (middle ++ back))) ∧
    ∀ source binding array, registryArray? (File.read source) binding = some array →
      (unspaced t.toList ∈ knownNames array → ∀ front s back, AsksFor t s →
        registerTypes source binding (front ++ s :: back) =
          registerTypes source binding (front ++ back)) ∧
      ∀ types, ∃ items, registerTypes source binding types = extended source binding array items ∧
        items.Sublist (types.map entryText) ∧ (items.map registeredName).Nodup ∧
        ∀ k, k ∈ items.map registeredName ↔
          (∃ s ∈ types, registeredName (entryText s) = k) ∧ k ∉ knownNames array := by
  refine ⟨fun s hs => hs.registeredName_eq ht, registeredName_entryOf, entryText_entryText, ?_, ?_⟩
  · intro source binding front s middle s' back hs hs'
    have hsame : askedName s' = askedName s := by
      rw [askedName, askedName, hs.registeredName_eq ht, hs'.registeredName_eq ht]
    have hmem : askedName s' ∈ (front ++ s :: middle).map askedName := by
      rw [hsame]
      exact List.mem_map_of_mem (by simp)
    have hskip (known : List (List Char)) :
        newEntries known (front ++ s :: middle ++ s' :: back) =
          newEntries known (front ++ s :: middle ++ back) := newEntries_skip (.inr hmem)
    simp only [List.append_assoc, List.cons_append] at hskip
    simp only [registerTypes_eq, hskip]
  · intro source binding array harray
    refine ⟨fun hknown front s back hs => ?_, fun types => ?_⟩
    · have hkey : askedName s ∈ knownNames array := by
        rw [askedName, hs.registeredName_eq ht]
        exact hknown
      simp only [registerTypes_eq, harray, newEntries_skip (.inl hkey)]
    · obtain ⟨hnodup, hmem⟩ := newEntries_keys (knownNames array) types
      refine ⟨newEntries (knownNames array) types, ?_, newEntries_sublist _ _, hnodup, fun k => ?_⟩
      · simp only [registerTypes_eq, harray]
      · rw [hmem, List.mem_map]
        rfl

/-- A registry with one entry. -/
def moneyRegistry : String :=
  "fn f() \x7b let external_model_types = [TypeId::of::<Vec<crate::v05::Money>>()]; \x7d"

theorem registerTypes_once_money :
    IsTypeText "Vec<crate::v05::Money>".toList ∧
    registerTypes moneyRegistry "EXTERNAL_MODEL_TYPES"
        ["Audit", "Vec< crate :: v05::Money >", "TypeId::of::<\tVec<crate::v05::Money>>()\n"] =
      registerTypes moneyRegistry "EXTERNAL_MODEL_TYPES" ["Audit"] := by
  have ht : IsTypeText "Vec<crate::v05::Money>".toList := by
    simp only [String.reduceToList]
    decide +kernel
  have hfound : (registryArray? (File.read moneyRegistry) "EXTERNAL_MODEL_TYPES").any
      (fun array => decide (unspaced "Vec<crate::v05::Money>".toList ∈ knownNames array)) = true :=
    by decide +kernel
  obtain ⟨array, harray, hknown⟩ := (Option.any_eq_true ..).1 hfound
  obtain ⟨-, -, -, -, harrays⟩ := registerTypes_once ht
  have hskip := (harrays _ _ _ harray).1 (of_decide_eq_true hknown)
  have hentry : AsksFor "Vec<crate::v05::Money>" "TypeId::of::<\tVec<crate::v05::Money>>()\n" :=
    @AsksFor.entry _ _ "\tVec<crate::v05::Money>".toList (by decide +kernel) (by decide +kernel)
  refine ⟨ht, ?_⟩
  exact (hskip ["Audit"] _ [_] (.type (by decide +kernel))).trans (hskip ["Audit"] _ [] hentry)

/-- Parentheses around a type are no part of its entry. -/
example : registeredName (entryText "(A, B)") = "A,B".toList := by decide +kernel

end Docsmith.Source
