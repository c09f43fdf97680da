import Docsmith.Proofs.Description.Once

/-!
# Folding regions

Regions that have been recorded are declared one by one, each on the text the one before has left. So
a name that several regions have is declared in the first of them, and a region of whose names none is
left gets no block.

* `recorded_entries`: what a run of records leaves;
* `mem_plan_iff`: which names are planned for a region;
* `Declarable.declareEach_plan`: the blocks that are put into a text are those that were planned, by
  induction on the regions;
* `declareIn_folds`: all of it.
-/

namespace Docsmith

namespace Table

variable {κ α : Type} [DecidableEq κ]

/-- A table is told by its keys and what is found under them. -/
theorem entries_eq {t : Table κ α} {f : κ → α} (h : ∀ k ∈ t.keys, t.find? k = some (f k)) :
    t.entries = t.keys.map fun k => (k, f k) := by
  rw [keys, List.map_map]
  refine (List.map_id _).symm.trans (List.map_congr_left fun e he => ?_)
  have hfound := (find?_of_mem he).symm.trans (h e.1 (List.mem_map_of_mem he))
  exact Prod.ext rfl (Option.some.inj hfound)

theorem keys_put_eraseDups {t : Table κ α} {ks : List κ} (h : t.keys = ks.eraseDups) (k : κ) (a : α) :
    (t.put k a).keys = (ks ++ [k]).eraseDups := by
  rw [keys_put, h, List.eraseDups_append]
  by_cases hk : k ∈ ks
  · simp [hk, List.removeAll]
  · simp [hk, List.removeAll, List.eraseDups_cons]

end Table

namespace Description

open Docsmith.Source Token Lexer

variable {source typeName : String} {r : Revision}

/-! ## What has been recorded -/

/-- The regions that calls leave, each call with a region and names. -/
def Regions.recorded (calls : List (String × List String)) : Regions :=
  calls.foldl (fun r call => r.record call.1 call.2) .empty

/-- The names that calls give to a region, each once. -/
def namesOf (calls : List (String × List String)) (region : String) : List String :=
  ((calls.filter (·.1 = region)).flatMap (·.2)).eraseDups

/-- The regions that calls give, in the order they were first given, each with its names. -/
def groups (calls : List (String × List String)) : List (String × List String) :=
  (calls.map (·.1)).eraseDups.map fun region => (region, namesOf calls region)

/-- A name stands for itself until it is described. -/
def plain (names : List String) : List (String × String) := names.map fun name => (name, name)

/-- The table of names that stand for themselves. -/
def plainTable (names : List String) : Table String String :=
  names.foldl (fun t name => t.put name name) .empty

theorem plainTable_append (names more : List String) :
    plainTable (names ++ more) = more.foldl (fun t name => t.put name name) (plainTable names) :=
  List.foldl_append ..

theorem keys_plainTable (names : List String) : (plainTable names).keys = names.eraseDups := by
  induction names using List.reverseRecOn with
  | nil => rfl
  | append_singleton names name ih =>
    rw [plainTable_append]
    exact Table.keys_put_eraseDups ih name name

theorem find?_plainTable {name : String} (names : List String) (h : name ∈ names) :
    (plainTable names).find? name = some name := by
  induction names using List.reverseRecOn with
  | nil => cases h
  | append_singleton names other ih =>
    rw [plainTable_append, List.foldl_cons, List.foldl_nil, Table.find?_put]
    by_cases he : name = other
    · rw [if_pos he, he]
    · rw [if_neg he]
      exact ih ((List.mem_append.1 h).resolve_right fun h => he (List.mem_singleton.1 h))

theorem entries_plainTable (names : List String) :
    (plainTable names).entries = plain names.eraseDups := by
  rw [Table.entries_eq (f := id), keys_plainTable]
  · rfl
  · intro name hname
    rw [keys_plainTable, List.mem_eraseDups] at hname
    exact find?_plainTable names hname

theorem recorded_append_singleton (calls : List (String × List String)) (call : String × List String) :
    Regions.recorded (calls ++ [call]) = (Regions.recorded calls).record call.1 call.2 := by
  rw [Regions.recorded, List.foldl_append]
  rfl

theorem keys_recorded (calls : List (String × List String)) :
    (Regions.recorded calls).byName.keys = (calls.map (·.1)).eraseDups := by
  induction calls using List.reverseRecOn with
  | nil => rfl
  | append_singleton calls call ih =>
    rw [recorded_append_singleton, List.map_append]
    exact Table.keys_put_eraseDups ih ..

/-- Under a region are found the names that all calls have given to it. -/
theorem getD_find?_recorded (calls : List (String × List String)) (region : String) :
    ((Regions.recorded calls).byName.find? region).getD .empty =
      plainTable ((calls.filter (·.1 = region)).flatMap (·.2)) := by
  induction calls using List.reverseRecOn with
  | nil => rfl
  | append_singleton calls call ih =>
    rw [recorded_append_singleton, Regions.record, Table.update, Table.find?_put,
      List.filter_append, List.flatMap_append]
    by_cases h : region = call.1
    · rw [if_pos h, Option.getD_some, ← h, ih, List.filter_cons_of_pos (by simp [h]), List.filter_nil,
        List.flatMap_singleton, plainTable_append]
    · rw [if_neg h, ih, List.filter_cons_of_neg (by simpa using fun he => h he.symm), List.filter_nil,
        List.flatMap_nil, List.append_nil]

/-- A run of records leaves the regions of its calls, each with its names. -/
theorem recorded_entries (calls : List (String × List String)) :
    (Regions.recorded calls).byName.entries = (calls.map (·.1)).eraseDups.map fun region =>
      (region, plainTable ((calls.filter (·.1 = region)).flatMap (·.2))) := by
  rw [← keys_recorded]
  refine Table.entries_eq fun region hregion => ?_
  rw [← getD_find?_recorded]
  cases h : (Regions.recorded calls).byName.find? region with
  | none => exact absurd hregion (Table.find?_eq_none_iff.1 h)
  | some t => rfl

/-! ## What is to be declared -/

/-- What is to be declared of regions: each with its names that neither the text nor a region before
it has, without those that have no such name. -/
def plan : List String → List (String × List String) → List (String × List String)
  | _, [] => []
  | known, (region, names) :: rest =>
    let fresh := names.filter (· ∉ known)
    (if fresh = [] then [] else [(region, fresh)]) ++ plan (known ++ names) rest

variable {known : List String} {gs : List (String × List String)}

theorem plan_congr {known' : List String} (h : ∀ name, name ∈ known ↔ name ∈ known') :
    plan known gs = plan known' gs := by
  induction gs generalizing known known' with
  | nil => rfl
  | cons g rest ih =>
    have hfresh : g.2.filter (· ∉ known) = g.2.filter (· ∉ known') :=
      List.filter_congr fun name _ => by simp [h]
    have hrest : plan (known ++ g.2) rest = plan (known' ++ g.2) rest :=
      ih fun name => by simp [h]
    rw [plan, plan, hfresh, hrest]

/-- A name is planned for the first region that has it, unless the text has it. -/
theorem mem_plan_iff (region name : String) :
    (∃ names, (region, names) ∈ plan known gs ∧ name ∈ names) ↔
      name ∉ known ∧ (gs.find? (name ∈ ·.2)).map (·.1) = some region := by
  induction gs generalizing known with
  | nil => simp [plan]
  | cons g rest ih =>
    have hrest := @ih (known ++ g.2)
    have hhead : (∃ names, (region, names) ∈ plan known (g :: rest) ∧ name ∈ names) ↔
        (region = g.1 ∧ name ∈ g.2 ∧ name ∉ known) ∨
          ∃ names, (region, names) ∈ plan (known ++ g.2) rest ∧ name ∈ names := by
      rw [plan]
      simp only [List.mem_append, or_and_right, exists_or]
      refine or_congr_left ⟨?_, fun ⟨hregion, hmem, hnot⟩ => ?_⟩
      · rintro ⟨names, hnames, hmem⟩
        split at hnames
        · cases hnames
        · obtain ⟨rfl, rfl⟩ := Prod.mk.inj (List.mem_singleton.1 hnames)
          simpa using hmem
      · have hfresh : name ∈ g.2.filter (· ∉ known) := by simp [hmem, hnot]
        refine ⟨_, ?_, hfresh⟩
        rw [if_neg (List.ne_nil_of_mem hfresh), hregion]
        exact List.mem_singleton_self _
    rw [hhead, hrest, List.find?_cons]
    by_cases hname : name ∈ g.2
    · simp [hname, and_comm, eq_comm]
    · simp [hname]

/-! ## Folding -/

/-- A text becomes another one by one block, in front of the brace that closes the last inherent impl
of a type. -/
def PutsBlock (typeName source region : String) (names : List String) (next : String) : Prop :=
  ∃ impl list closing indent outer gap,
    ((File.read source).ownImpls typeName).getLast? = some impl ∧
    impl.child? .assocItemList = some list ∧ list.token? .rCurly = some closing ∧
    (∀ b ∈ indent, isBlank b = true) ∧ (∀ b ∈ outer, isBlank b = true) ∧
    (gap = [] ∨ gap = ['\n']) ∧
    next.toList = Edit.applyAll source.toList [(File.read source).insertBlock closing.start outer
      (gap ++ regionBlock indent region (plain names))]

/-- A text becomes another one by blocks, put into it one by one. -/
inductive PutsBlocks (typeName : String) : String → List (String × List String) → String → Prop
  | nil (source : String) : PutsBlocks typeName source [] source
  | cons {source next after region : String} {names : List String}
      {rest : List (String × List String)} : PutsBlock typeName source region names next →
      PutsBlocks typeName next rest after → PutsBlocks typeName source ((region, names) :: rest) after

theorem missing_plain {constants : Table String String} {names : List String}
    (h : constants.entries = plain names) :
    missing source typeName constants =
      plain (names.filter (· ∉ declared source typeName)) := by
  rw [missing, h, plain, plain, List.filter_map]
  exact congrArg _ (List.filter_congr fun name _ => by simp [List.contains_eq_mem])

/-- One region is declared in one block, unless it has no name that is missing. -/
theorem declareConstants_plain {region : String} {constants : Table String String}
    {names : List String} (hn : constants.entries = plain names)
    (h : declareConstants source typeName region constants = .ok r) :
    let fresh := names.filter (· ∉ declared source typeName)
    (fresh = [] ∧ r.after = source) ∨
      fresh ≠ [] ∧ PutsBlock typeName source region fresh r.after := by
  intro fresh
  have hnil : plain fresh = [] ↔ fresh = [] := List.map_eq_nil_iff
  rcases declareConstants_cases h with ⟨hnone, hr⟩ | ⟨hne, impl, list, closing, indent, outer, gap,
    himpl, hlist, hclosing, hindent, houter, hgap, hnew⟩
  · rw [missing_plain hn] at hnone
    exact .inl ⟨hnil.1 hnone, hr⟩
  · rw [missing_plain hn] at hne hnew
    exact .inr ⟨mt hnil.2 hne, impl, list, closing, indent, outer, gap, himpl, hlist, hclosing,
      hindent, houter, hgap, hnew⟩

theorem declareEach_cons {region : String} {constants : Table String String}
    {rest : List (String × Table String String)} {done : Revision}
    (h : Regions.declareEach typeName ((region, constants) :: rest) done = .ok r) :
    ∃ step, declareConstants done.after typeName region constants = .ok step ∧
      Regions.declareEach typeName rest ⟨done.before, step.after⟩ = .ok r := by
  rw [Regions.declareEach] at h
  cases hs : declareConstants done.after typeName region constants with
  | error e =>
    rw [hs] at h
    cases h
  | ok step =>
    rw [hs] at h
    exact ⟨step, rfl, h⟩

/-- Each region has names that stand for themselves, and its line does not end early. -/
def Plain (regions : List (String × Table String String)) (gs : List (String × List String)) :
    Prop :=
  regions.map (fun e => (e.1, e.2.entries)) = gs.map (fun g => (g.1, plain g.2)) ∧
    ∀ g ∈ gs, '\n' ∉ g.1.toList ∧ ∀ name ∈ g.2, IsIdentifier name

/-- One region of several is declared: what is declared behind it, and what becomes of the others. -/
theorem Declarable.declareEach_step {regions : List (String × Table String String)}
    {g : String × List String} {rest : List (String × List String)} {done : Revision}
    (hd : Declarable done.after) (hp : Plain regions (g :: rest))
    (h : Regions.declareEach typeName regions done = .ok r) :
    ∃ constants regions' step, constants.entries = plain g.2 ∧
      Description.declareConstants done.after typeName g.1 constants = .ok step ∧ Declarable step.after ∧
      (∀ name, (declared step.after typeName).count name =
        if name ∈ declared done.after typeName then (declared done.after typeName).count name
        else if name ∈ g.2 then 1 else 0) ∧
      Plain regions' rest ∧
      Regions.declareEach typeName regions' ⟨done.before, step.after⟩ = .ok r := by
  obtain ⟨hmap, hnames⟩ := hp
  obtain ⟨⟨hregion, hids⟩, hnames⟩ := List.forall_mem_cons.1 hnames
  obtain ⟨⟨region, constants⟩, regions', rfl, he, hrestmap⟩ := List.map_eq_cons_iff.1 hmap
  obtain ⟨rfl, hentries⟩ := Prod.mk.inj he
  obtain ⟨step, hstep, hrest⟩ := declareEach_cons h
  have hkeys : constants.keys = g.2 := by
    rw [Table.keys, hentries, plain, List.map_map]
    exact List.map_id _
  have hids' : ∀ c ∈ constants.entries, IsIdentifier c.1 := by
    rw [hentries, plain, List.forall_mem_map]
    exact hids
  refine ⟨constants, regions', step, hentries, hstep, (hd.declareConstants hids' hregion hstep).1,
    ?_, ⟨hrestmap, hnames⟩, hrest⟩
  rw [← hkeys]
  exact count_declared hd hids' hregion hstep

/-- The blocks of regions that are declared one by one are those that were planned before the
first. -/
theorem Declarable.declareEach_plan {regions : List (String × Table String String)}
    {gs : List (String × List String)} {done : Revision} (hd : Declarable done.after)
    (hp : Plain regions gs) (h : Regions.declareEach typeName regions done = .ok r) :
    PutsBlocks typeName done.after (plan (declared done.after typeName) gs) r.after := by
  induction gs generalizing regions done with
  | nil =>
    obtain rfl := List.map_eq_nil_iff.1 hp.1
    obtain rfl := Except.ok.inj h
    exact .nil _
  | cons g rest ih =>
    obtain ⟨constants, regions', step, hentries, hstep, hd', hcount, hp', hrest⟩ :=
      hd.declareEach_step hp h
    have hknown (name : String) :
        name ∈ declared step.after typeName ↔ name ∈ declared done.after typeName ++ g.2 := by
      rw [← List.count_pos_iff, hcount, List.mem_append]
      split
      · simp [*, List.count_pos_iff]
      · split <;> simp [*]
    replace hd' : Declarable (Revision.mk done.before step.after).after := hd'
    have hblocks := ih hd' hp' hrest
    rw [plan_congr hknown] at hblocks
    rw [plan]
    rcases declareConstants_plain hentries hstep with ⟨hnone, hr⟩ | ⟨hne, hblock⟩
    · rw [if_pos hnone, List.nil_append]
      dsimp only at hblocks
      rwa [hr] at hblocks
    · rw [if_neg hne]
      exact .cons hblock hblocks

/-- How often a name is declared behind several regions. -/
theorem Declarable.count_declareEach {regions : List (String × Table String String)}
    {gs : List (String × List String)} {done : Revision} (hd : Declarable done.after)
    (hp : Plain regions gs) (h : Regions.declareEach typeName regions done = .ok r) (name : String) :
    (declared r.after typeName).count name =
      if name ∈ declared done.after typeName then (declared done.after typeName).count name
      else if ∃ g ∈ gs, name ∈ g.2 then 1 else 0 := by
  induction gs generalizing regions done with
  | nil =>
    obtain rfl := List.map_eq_nil_iff.1 hp.1
    obtain rfl := Except.ok.inj h
    split
    · rfl
    · simp [*, List.count_eq_zero_of_not_mem]
  | cons g rest ih =>
    obtain ⟨constants, regions', step, hentries, hstep, hd', hcount, hp', hrest⟩ :=
      hd.declareEach_step hp h
    replace hd' : Declarable (Revision.mk done.before step.after).after := hd'
    rw [ih hd' hp' hrest]
    dsimp only
    have hmem : name ∈ declared step.after typeName ↔
        name ∈ declared done.after typeName ∨ name ∈ g.2 := by
      rw [← List.count_pos_iff, hcount]
      split
      · simp [*, List.count_pos_iff]
      · split <;> simp [*]
    rw [hcount]
    simp only [hmem, List.exists_mem_cons_iff]
    by_cases hold : name ∈ declared done.after typeName
    · simp [hold]
    · by_cases hg : name ∈ g.2
      · simp [hold, hg]
      · simp only [hold, hg, false_or, if_false]

/-- Regions of which everything is declared leave the text as it is. -/
theorem declareEach_unchanged {regions : List (String × Table String String)} {before after : String}
    (h : ∀ e ∈ regions, ∀ c ∈ e.2.entries, c.1 ∈ declared after typeName) :
    Regions.declareEach typeName regions ⟨before, after⟩ = .ok ⟨before, after⟩ := by
  induction regions with
  | nil => rfl
  | cons e rest ih =>
    obtain ⟨he, hrest⟩ := List.forall_mem_cons.1 h
    rw [Regions.declareEach, declareConstants_unchanged he]
    exact ih hrest

/-- What a run of records hands to be declared. -/
theorem plain_recorded {calls : List (String × List String)}
    (h : ∀ call ∈ calls, '\n' ∉ call.1.toList ∧ ∀ name ∈ call.2, IsIdentifier name) :
    Plain ((Regions.recorded calls).byName.entries.filter (!·.2.isEmpty))
      ((groups calls).filter (·.2 ≠ [])) := by
  refine ⟨?_, fun g hg => ?_⟩
  · have hkeep (region : String) : (!(plainTable ((calls.filter (·.1 = region)).flatMap
        (·.2))).isEmpty) = decide (namesOf calls region ≠ []) := by
      rw [Table.isEmpty, entries_plainTable, ← namesOf]
      cases namesOf calls region <;> rfl
    rw [recorded_entries, groups, List.filter_map, List.filter_map, List.map_map, List.map_map]
    refine congr (congrArg _ (funext fun region => ?_)) (List.filter_congr fun region _ => hkeep region)
    exact congrArg _ (entries_plainTable _)
  · obtain ⟨region, hregion, rfl⟩ := List.mem_map.1 (List.mem_filter.1 hg).1
    rw [List.mem_eraseDups, List.mem_map] at hregion
    obtain ⟨call, hcall, rfl⟩ := hregion
    refine ⟨(h call hcall).1, fun name hname => ?_⟩
    obtain ⟨call', hcall', hname⟩ := List.mem_flatMap.1 (List.mem_eraseDups.1 hname)
    exact (h call' (List.mem_filter.1 hcall').1).2 name hname

theorem plan_filter (known : List String) (gs : List (String × List String)) :
    plan known (gs.filter (·.2 ≠ [])) = plan known gs := by
  induction gs generalizing known with
  | nil => rfl
  | cons g rest ih =>
    by_cases hg : g.2 = []
    · rw [List.filter_cons_of_neg (by simpa using hg), ih, plan, hg, List.append_nil]
      rfl
    · rw [List.filter_cons_of_pos (by simpa using hg), plan, plan, ih]

theorem exists_mem_groups {calls : List (String × List String)} {name : String} :
    (∃ g ∈ (groups calls).filter (·.2 ≠ []), name ∈ g.2) ↔ ∃ call ∈ calls, name ∈ call.2 := by
  constructor
  · rintro ⟨g, hg, hname⟩
    obtain ⟨region, -, rfl⟩ := List.mem_map.1 (List.mem_filter.1 hg).1
    obtain ⟨call, hcall, hname⟩ := List.mem_flatMap.1 (List.mem_eraseDups.1 hname)
    exact ⟨call, (List.mem_filter.1 hcall).1, hname⟩
  · rintro ⟨call, hcall, hname⟩
    have hmem : name ∈ namesOf calls call.1 := List.mem_eraseDups.2
      (List.mem_flatMap.2 ⟨call, List.mem_filter.2 ⟨hcall, by simp⟩, hname⟩)
    refine ⟨(call.1, namesOf calls call.1), List.mem_filter.2 ⟨List.mem_map_of_mem ?_, ?_⟩, hmem⟩
    · exact List.mem_eraseDups.2 (List.mem_map_of_mem hcall)
    · simpa using List.ne_nil_of_mem hmem

/-- Recorded regions are declared in a file: a name that was declared is declared as often as before,
any other name once if it was recorded. The text gets one block for each region that has a name which
neither the text nor a region before it has, in the order of the regions, and with these names.
Declaring the regions again changes nothing. -/
theorem declareIn_folds {calls : List (String × List String)} (hd : Declarable source)
    (hcalls : ∀ call ∈ calls, '\n' ∉ call.1.toList ∧ ∀ name ∈ call.2, IsIdentifier name)
    (h : (Regions.recorded calls).declareIn source typeName = .ok r) :
    (∀ name, (declared r.after typeName).count name =
      if name ∈ declared source typeName then (declared source typeName).count name
      else if ∃ call ∈ calls, name ∈ call.2 then 1 else 0) ∧
    PutsBlocks typeName source (plan (declared source typeName) (groups calls)) r.after ∧
    (∀ region name,
      (∃ names, (region, names) ∈ plan (declared source typeName) (groups calls) ∧ name ∈ names) ↔
        name ∉ declared source typeName ∧
          ((groups calls).find? (name ∈ ·.2)).map (·.1) = some region) ∧
    (Regions.recorded calls).declareIn r.after typeName = .ok (.unchanged r.after) := by
  have hp := plain_recorded hcalls
  have hcount := Declarable.count_declareEach hd hp h
  have hblocks := Declarable.declareEach_plan hd hp h
  rw [plan_filter] at hblocks
  refine ⟨fun name => ?_, hblocks, mem_plan_iff, declareEach_unchanged fun e he c hc => ?_⟩
  · simpa only [exists_mem_groups, Revision.unchanged] using hcount name
  · have hmem : (e.1, e.2.entries) ∈ ((groups calls).filter (·.2 ≠ [])).map fun g => (g.1, plain g.2) :=
      hp.1 ▸ List.mem_map_of_mem he
    obtain ⟨g, hg, he⟩ := List.mem_map.1 hmem
    obtain ⟨-, hentries⟩ := Prod.mk.inj he
    rw [← hentries] at hc
    obtain ⟨name, hname, rfl⟩ := List.mem_map.1 hc
    rw [← List.count_pos_iff, hcount]
    split
    · exact List.count_pos_iff.2 ‹_›
    · rw [if_pos ⟨g, hg, hname⟩]
      exact Nat.one_pos

/-- Three calls for two regions, with one name in both. -/
def sharedName : List (String × List String) :=
  [("User", ["AB"]), ("Order", ["CD", "AB"]), ("User", ["AB"])]

theorem declareIn_folds_shared :
    ∃ r, (Regions.recorded sharedName).declareIn oneDeclared "D" = .ok r ∧
      (declared r.after "D").count "AB" = 1 ∧ (declared r.after "D").count "CD" = 1 ∧
      PutsBlocks "D" oneDeclared [("Order", ["CD"])] r.after ∧
      (Regions.recorded sharedName).declareIn r.after "D" = .ok (.unchanged r.after) := by
  have hd : Declarable oneDeclared := ⟨by decide +kernel, by decide +kernel, by decide +kernel⟩
  have hcalls : ∀ call ∈ sharedName, '\n' ∉ call.1.toList ∧ ∀ name ∈ call.2, IsIdentifier name := by
    decide +kernel
  have hold : declared oneDeclared "D" = ["AB"] := by decide +kernel
  have hplan : plan ["AB"] (groups sharedName) = [("Order", ["CD"])] := by decide +kernel
  have hok : ((Regions.recorded sharedName).declareIn oneDeclared "D").isOk = true := by decide +kernel
  cases h : (Regions.recorded sharedName).declareIn oneDeclared "D" with
  | error e =>
    rw [h] at hok
    cases hok
  | ok r =>
    obtain ⟨hcount, hblocks, -, hagain⟩ := declareIn_folds hd hcalls h
    rw [hold] at hcount hblocks
    rw [hplan] at hblocks
    exact ⟨r, rfl, hcount "AB", hcount "CD", hblocks, hagain⟩

/-- Where the text is read as frontmatter, a recorded name is not found again and folding again fails.
Where an impl gets another name, what it declared is lost. -/
theorem declareIn_not_folds :
    let loose := Regions.recorded [("R", ["B"])]
    let nested := Regions.recorded [("R<", ["A", "B"])]
    (File.WellFormed looseFence ∧ ∃ r, loose.declareIn looseFence "D" = .ok r ∧
      "B" ∉ declared r.after "D" ∧ loose.declareIn r.after "D" = .error (noImpl "D")) ∧
    (File.WellFormed implInType ∧ ∃ r, nested.declareIn implInType "D" = .ok r ∧
      "A" ∈ declared implInType "D" ∧ "A" ∉ declared r.after "D") := by
  intro loose nested
  refine ⟨⟨by decide +kernel, ⟨looseFence, "#!/**/[a] impl D \x7b\n    // region: R\n" ++
      "    pub const B: &str = \"B\";\n    // endregion: R\n\x7d /*\n---\n*/"⟩, ?_⟩,
    ⟨by decide +kernel, ⟨implInType, "impl ([u8; \x7b impl D \x7b\n    // region: R<\n" ++
      "    pub const B: &str = \"B\";\n    // endregion: R<\n" ++
      "\x7d 0 \x7d], x::D<u8>) \x7b const A: u8 = 0; \x7d"⟩, ?_⟩⟩ <;>
    decide +kernel

end Description

end Docsmith
