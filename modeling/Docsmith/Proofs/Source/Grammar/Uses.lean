import Docsmith.Proofs.Source.Grammar.Items

/-!
# Uses put between the items of a file

A file is read as the marks it starts with and its items, one behind the other. Uses that are put
behind a use, or in front of all items where there are no marks, are read as further items, and
nothing else changes.

* `exists_of_outlineOf`, `outlineOf_of_items`: a file as marks and items;
* `outlineOf_behind_use`: uses behind a use;
* `outlineOf_in_front`: uses in front of all items.
-/

namespace Docsmith.Source.Grammar

open TokenKind Outline Insertion

variable {S : Goal → Step Outcome} {s : State} {input mid rest front x y : List Input} {o : Outline}
  {os ps : List Outline} {siblings : List Outline} {depth depth' : Nat}

/-! ## Items one behind the other -/

/-- The input starts with items that are read as the outlines, and `rest` is what follows them. -/
inductive ReadsItems (S : Goal → Step Outcome) : List Input → List Outline → List Input → Prop
  | nil (input : List Input) : ReadsItems S input [] input
  | cons {input mid rest : List Input} {o : Outline} {os : List Outline} :
      ReadsItem S input o mid → ReadsItems S mid os rest → ReadsItems S input (o :: os) rest

namespace ReadsItems

theorem append (h : ReadsItems S input os mid) (h' : ReadsItems S mid ps rest) :
    ReadsItems S input (os ++ ps) rest := by
  induction h with
  | nil => exact h'
  | cons hitem _ ih => exact .cons hitem (ih h')

theorem split (h : ReadsItems S input (os ++ ps) rest) :
    ∃ mid, ReadsItems S input os mid ∧ ReadsItems S mid ps rest := by
  induction os generalizing input with
  | nil => exact ⟨input, .nil input, h⟩
  | cons o os ih =>
    cases h with
    | cons hitem h =>
      obtain ⟨mid, h₁, h₂⟩ := ih h
      exact ⟨mid, .cons hitem h₁, h₂⟩

theorem moves (h : ReadsItems (solve depth) input os rest) (siblings : List Outline) :
    Moves ⟨input, siblings, []⟩ ⟨rest, os.reverse ++ siblings, []⟩ := by
  induction h generalizing siblings with
  | nil => exact .refl _
  | cons hitem _ ih =>
    rw [List.reverse_cons, List.append_assoc]
    exact (hitem.moves siblings).trans (ih _)

theorem deeper (h : ReadsItems (solve depth) input os rest) (hd : depth ≤ depth') :
    ReadsItems (solve depth') input os rest := by
  induction h with
  | nil => exact .nil _
  | cons hitem _ ih => exact .cons (hitem.deeper hd) ih

theorem isNode (h : ReadsItems S input os rest) : ∀ o ∈ os, o.kind?.isSome := by
  induction h with
  | nil => simp
  | cons hitem _ ih => exact List.forall_mem_cons.2 ⟨hitem.isNode, ih⟩

/-- What items read up to a sealed token does not depend on what follows that. -/
theorem cut (h : ReadsItems (solve depth) (front ++ x) os rest) (hfront : Sealed front)
    (hn : x.length < rest.length) (hxy : x.length ≤ y.length) (hd : depth ≤ depth') :
    ∃ front', Sealed front' ∧ rest = front' ++ x ∧
      ReadsItems (solve depth') (front ++ y) os (front' ++ y) := by
  generalize hin : front ++ x = input at h
  induction h generalizing front with
  | nil => exact ⟨front, hfront, hin.symm, .nil _⟩
  | cons hitem hitems ih =>
    subst hin
    have hle := (hitems.moves []).rest.length_le
    obtain ⟨front', hfront', rfl, hitem'⟩ := hitem.cut hfront (Nat.lt_of_lt_of_le hn hle) hxy hd
    obtain ⟨front'', hfront'', hrest, hitems'⟩ := ih hfront' hn rfl
    exact ⟨front'', hfront'', hrest, .cons hitem' hitems'⟩

end ReadsItems

/-- The loop over the items of a file reads items. -/
theorem exists_items {n : Nat} {siblings : List Outline}
    (hc : (iterateUpTo n () fileRound (solve depth) ⟨input, siblings, []⟩).2.faults = []) :
    ∃ os, ReadsItems (solve depth) input os [] ∧ os.length < n ∧
      iterateUpTo n () fileRound (solve depth) ⟨input, siblings, []⟩ =
        ((), ⟨[], os.reverse ++ siblings, []⟩) := by
  induction n generalizing input siblings with
  | zero => cases hc
  | succ n ih =>
    rw [iterateUpTo_succ, fileRound_apply] at hc ⊢
    split at hc
    · rename_i hend
      obtain rfl : input = [] := ahead_isEmpty.1 hend
      exact ⟨[], .nil [], Nat.succ_pos n, rfl⟩
    · rename_i hend
      rw [if_neg hend]
      rw [if_pos rfl] at hc ⊢
      have hitem := (inferInstance : Built (run (.item false true))).moves (moves_solve depth)
        ⟨input, siblings, []⟩
      have hloop := moves_iterateUpTo (moves_fileRound (moves_solve depth)) n ()
        (run (.item false true) (solve depth) ⟨input, siblings, []⟩).2
      obtain ⟨o, mid, hread, hrun⟩ :=
        ReadsItem.of_clean (fun h => hend (ahead_isEmpty.2 h)) (hitem.clean hloop hc).1
      rw [hrun] at hc ⊢
      obtain ⟨os, hos, hlength, hrest⟩ := ih hc
      refine ⟨o :: os, .cons hread hos, Nat.succ_lt_succ hlength, ?_⟩
      rw [hrest, List.reverse_cons, List.append_assoc, List.singleton_append]

/-- Items are what the loop over the items of a file reads. -/
theorem iterateUpTo_items {n : Nat} (h : ReadsItems (solve depth) input os []) (hn : os.length < n)
    (siblings : List Outline) :
    iterateUpTo n () fileRound (solve depth) ⟨input, siblings, []⟩ =
      ((), ⟨[], os.reverse ++ siblings, []⟩) := by
  generalize hrest : ([] : List Input) = rest at h
  obtain ⟨n, rfl⟩ := Nat.exists_eq_add_one_of_ne_zero (Nat.ne_zero_of_lt hn)
  induction h generalizing n siblings with
  | nil =>
    subst hrest
    rfl
  | cons hitem _ ih =>
    obtain ⟨n, rfl⟩ := Nat.exists_eq_add_one_of_ne_zero (Nat.ne_zero_of_lt (Nat.lt_of_succ_lt_succ hn))
    rw [iterateUpTo_succ, fileRound_apply, if_neg (fun h => hitem.ne_nil (ahead_isEmpty.1 h)),
      if_pos rfl, hitem.reads, ih _ hrest n (Nat.lt_of_succ_lt_succ hn), List.reverse_cons,
      List.append_assoc, List.singleton_append]

/-! ## What a file starts with -/

instance : Built fileHead := by
  unfold fileHead
  infer_instance

/-- A token, or attributes of the file. -/
def IsMark (o : Outline) : Prop := o.kind? = none ∨ o.kind? = some .attr

theorem attrRound_apply (s : State) : attrRound () S s = ((false, ()), s) ∨
    ∃ t cs, attrRound () S s = ((true, ()), t) ∧ t.siblings = .node .attr cs :: s.siblings := by
  rw [attrRound, bind_apply, bind_apply, sees_apply, bind_apply, nth_apply]
  dsimp only
  split
  · exact .inr ⟨_, _, rfl, rfl⟩
  · exact .inl rfl

/-- Only attributes are added. -/
theorem exists_attrs (n : Nat) (s : State) :
    ∃ attrs, (iterateUpTo n () attrRound S s).2.siblings = attrs ++ s.siblings ∧
      (∀ o ∈ attrs, o.kind? = some .attr) ∧
      (attrs = [] → n ≠ 0 → (iterateUpTo n () attrRound S s).2 = s) := by
  induction n generalizing s with
  | zero => exact ⟨[], rfl, by simp, fun _ h => absurd rfl h⟩
  | succ n ih =>
    rw [iterateUpTo_succ]
    rcases attrRound_apply (S := S) s with h | ⟨t, cs, h, ht⟩
    · rw [h, if_neg Bool.false_ne_true]
      exact ⟨[], rfl, by simp, fun _ _ => rfl⟩
    · rw [h, if_pos rfl]
      obtain ⟨attrs, hattrs, hkind, -⟩ := ih t
      refine ⟨attrs ++ [.node .attr cs], ?_, ?_, fun hnil => by simp at hnil⟩
      · rw [hattrs, ht, List.append_assoc, List.singleton_append]
      · simpa [or_imp, forall_and, Outline.kind?] using hkind

theorem skip_siblings (k : TokenKind) (s : State) :
    ∃ marks, (skip k S s).2.siblings = marks ++ s.siblings ∧ ∀ o ∈ marks, o.kind? = none := by
  rw [skip_apply]
  split
  · exact ⟨[_], rfl, by simp [Outline.kind?]⟩
  · exact ⟨[], rfl, by simp⟩

/-- A file starts with marks. -/
theorem isMark_of_mem_fileHead (h : o ∈ (fileHead S ⟨input, [], []⟩).2.siblings) : IsMark o := by
  obtain ⟨line, hline, hl⟩ := skip_siblings (S := S) .shebang ⟨input, [], []⟩
  obtain ⟨block, hblock, hb⟩ :=
    skip_siblings (S := S) .frontmatter (skip .shebang S ⟨input, [], []⟩).2
  generalize hs : (skip .frontmatter S (skip .shebang S ⟨input, [], []⟩).2).2 = s at hblock
  obtain ⟨attrs, hattrs, ha, -⟩ := exists_attrs (S := S) (2 * s.rest.length + 2) s
  have hhead : (fileHead S ⟨input, [], []⟩).2 =
      (iterateUpTo (2 * s.rest.length + 2) () attrRound S s).2 := by
    rw [fileHead, bind_apply, bind_apply, hs]
    rfl
  rw [hhead, hattrs, hblock, hline, List.append_nil, List.mem_append, List.mem_append] at h
  rcases h with h | h | h
  · exact .inr (ha o h)
  · exact .inl (hb o h)
  · exact .inl (hl o h)

theorem startsWith_cons {k : TokenKind} (hk : k.parts = [k]) (u : Input) (us : List Input) :
    startsWith k.parts (ahead (u :: us)) = decide (u.kind = k) := by
  rw [hk, ahead.eq_def]
  simp [startsWith, continuesWith]

theorem skip_eq_self {k : TokenKind} (hk : k.parts = [k]) (hno : ∀ u ∈ input.head?, u.kind ≠ k) :
    (skip k S ⟨input, [], []⟩).2 = ⟨input, [], []⟩ := by
  rw [skip_apply]
  cases input with
  | nil => rw [hk]; rfl
  | cons u us => rw [startsWith_cons hk, if_neg (by simpa using hno u rfl)]

/-- A file without an interpreter's line, frontmatter and attributes starts with its items. -/
theorem fileHead_eq_self (hline : ∀ u ∈ input.head?, u.kind ≠ .shebang ∧ u.kind ≠ .frontmatter)
    (hattr : ∀ o ∈ (fileHead S ⟨input, [], []⟩).2.siblings, o.kind? ≠ some .attr) :
    (fileHead S ⟨input, [], []⟩).2 = ⟨input, [], []⟩ := by
  have hhead : (fileHead S ⟨input, [], []⟩).2 =
      (iterateUpTo (2 * input.length + 2) () attrRound S ⟨input, [], []⟩).2 := by
    rw [fileHead, bind_apply, bind_apply, skip_eq_self rfl fun u hu => (hline u hu).1,
      skip_eq_self rfl fun u hu => (hline u hu).2]
    rfl
  obtain ⟨attrs, hattrs, ha, hself⟩ :=
    exists_attrs (S := S) (2 * input.length + 2) ⟨input, [], []⟩
  rw [hhead] at hattr ⊢
  rw [hattrs, List.append_nil] at hattr
  refine hself (List.eq_nil_iff_forall_not_mem.2 fun o ho => hattr o ho (ha o ho)) (by omega)

/-! ## Files -/

/-- How deep rules may nest in a file. -/
def depthOf (input : List Input) : Nat := 8 * (input.length + 2)

/-- A file without a fault: what it starts with, and its items. -/
theorem exists_of_outlineOf (hc : outlineOf input = (os, [])) : ∃ head items mid,
    os = head ++ items ∧ (∀ o ∈ head, IsMark o) ∧
      (fileHead (solve (depthOf input)) ⟨input, [], []⟩).2 = ⟨mid, head.reverse, []⟩ ∧
      ReadsItems (solve (depthOf input)) mid items [] ∧ items.length < 2 * mid.length + 2 := by
  have hfaults := faults_fileEnd (congrArg Prod.snd hc)
  rw [outlineOf_eq] at hc
  have hend : fileEnd input = (fileItems (solve (depthOf input)) ⟨input, [], []⟩).2 := rfl
  rw [fileItems_apply] at hend
  have hmoves := (inferInstance : Built fileHead).moves (moves_solve (depthOf input)) ⟨input, [], []⟩
  have hmarks (o : Outline)
      (h : o ∈ (fileHead (solve (depthOf input)) ⟨input, [], []⟩).2.siblings) : IsMark o :=
    isMark_of_mem_fileHead h
  generalize (fileHead (solve (depthOf input)) ⟨input, [], []⟩).2 = head at hend hmoves hmarks
  obtain ⟨mid, marks, faults⟩ := head
  have hloop := moves_iterateUpTo (moves_fileRound (moves_solve (depthOf input)))
    (2 * mid.length + 2) () ⟨mid, marks, faults⟩
  rw [hend] at hfaults
  obtain rfl : faults = [] := (hmoves.clean hloop hfaults).1
  obtain ⟨items, hitems, hlength, hrun⟩ := exists_items hfaults
  rw [hend, hrun] at hc
  refine ⟨marks.reverse, items, mid, ?_, fun o ho => hmarks o (List.mem_reverse.1 ho), ?_, hitems,
    hlength⟩
  · rw [← (Prod.mk.inj hc).1]
    simp
  · rw [List.reverse_reverse]

/-- A file from what it starts with and its items. -/
theorem outlineOf_of_items {head items : List Outline}
    (hhead : (fileHead (solve (depthOf input)) ⟨input, [], []⟩).2 = ⟨mid, head.reverse, []⟩)
    (hitems : ReadsItems (solve (depthOf input)) mid items [])
    (hlength : items.length < 2 * mid.length + 2) : outlineOf input = (head ++ items, []) := by
  have hend : fileEnd input = (fileItems (solve (depthOf input)) ⟨input, [], []⟩).2 := rfl
  rw [fileItems_apply, hhead, iterateUpTo_items hitems hlength] at hend
  rw [outlineOf_eq, hend]
  simp

/-! ## Uses -/

/-- The tokens of a use and what they are read as. -/
structure IsUse (input : List Input) (o : Outline) : Prop where
  keyword : ∃ u us, input = u :: us ∧ u.kind = .useKw
  kind : o.kind? = some .useItem
  outline : outlineOf input = ([o], [])

/-- No semicolon comes first. -/
def NoSemicolon (input : List Input) : Prop := startsWith semi.parts (ahead input) = false

theorem noSemicolon_cons {u : Input} (hu : u.kind ≠ .semi) (us : List Input) :
    NoSemicolon (u :: us) := by
  rw [NoSemicolon, startsWith_cons rfl]
  simpa using hu

/-- Nothing is in front of the items of a file that starts with a use. -/
theorem fileHead_use {u : Input} (hu : u.kind = .useKw) (us : List Input) :
    (fileHead S ⟨u :: us, [], []⟩).2 = ⟨u :: us, [], []⟩ := by
  rw [fileHead, bind_apply, bind_apply, skip_eq_self rfl (by rintro v ⟨⟩; simp [hu]),
    skip_eq_self rfl (by rintro v ⟨⟩; simp [hu]), innerAttrs_eq, iterate_apply,
    iterateUpTo_attrRound]
  rw [startsWith_cons rfl, hu]
  rfl

/-- A file that starts with a use holds nothing but items. -/
theorem items_of_use {u : Input} {us : List Input} (hc : outlineOf (u :: us) = (os, []))
    (hu : u.kind = .useKw) : ReadsItems (solve (depthOf (u :: us))) (u :: us) os [] := by
  obtain ⟨head, items, mid, rfl, -, hhead, hitems, -⟩ := exists_of_outlineOf hc
  rw [fileHead_use hu] at hhead
  obtain ⟨rfl, hmarks, -⟩ := State.mk.inj hhead
  obtain rfl : head = [] := List.reverse_eq_nil_iff.1 hmarks.symm
  exact hitems

/-- No item starts with a semicolon. -/
theorem ReadsItem.noSemicolon (h : ReadsItem (solve depth) input o rest) : NoSemicolon input := by
  obtain ⟨⟨kind, text, glued⟩, us, rfl⟩ := List.exists_cons_of_ne_nil h.ne_nil
  refine noSemicolon_cons (fun hsemi => ?_) us
  obtain rfl : kind = .semi := hsemi
  have hitem := h.reads []
  cases depth with
  | zero => cases hitem
  | succ depth =>
  rw [run_item] at hitem
  obtain ⟨kind, found, rest, inside, hbody, -⟩ :=
    item_clean (moves_solve depth) (congrArg (·.2.faults) hitem)
  have hother : (itemBody true (solve depth) ⟨⟨.semi, text, glued⟩ :: us, [], []⟩).1 =
      (none, .other) := by
    cases us <;> rfl
  rw [hbody] at hother
  cases hother

namespace IsUse

/-- A use stands up to its semicolon, and is read the same whatever follows. -/
theorem reads (h : IsUse input o) : o.EndsInToken ∧ (∃ us u, input = us ++ [u] ∧ u.kind = .semi) ∧
    ∀ {depth y}, depthOf input ≤ depth → NoSemicolon y → ReadsItem (solve depth) (input ++ y) o y := by
  obtain ⟨u, us, rfl, hu⟩ := h.keyword
  cases items_of_use h.outline hu with
  | cons hitem hrest =>
    cases hrest
    obtain ⟨-, hends, vs, v, hin, hv, -, hread⟩ := hitem.use h.kind
    refine ⟨hends, ⟨vs, v, hin, hv⟩, fun {depth y} hd hy => ?_⟩
    rw [hin, List.append_assoc]
    exact hread (Nat.zero_le _) hd hy

end IsUse

/-- Uses may be put in front of what starts with no semicolon. -/
theorem ReadsItems.of_uses {uses : List (List Input × Outline)} (h : ∀ p ∈ uses, IsUse p.1 p.2)
    (hd : ∀ p ∈ uses, depthOf p.1 ≤ depth) (hy : NoSemicolon y) :
    NoSemicolon (uses.flatMap (·.1) ++ y) ∧
      ReadsItems (solve depth) (uses.flatMap (·.1) ++ y) (uses.map (·.2)) y := by
  induction uses with
  | nil => exact ⟨hy, .nil y⟩
  | cons p uses ih =>
    obtain ⟨hp, h⟩ := List.forall_mem_cons.1 h
    obtain ⟨hdp, hd⟩ := List.forall_mem_cons.1 hd
    obtain ⟨hno, hreads⟩ := ih h hd
    obtain ⟨u, us, hin, hu⟩ := hp.keyword
    rw [List.flatMap_cons, List.append_assoc]
    refine ⟨?_, .cons (hp.reads.2.2 hdp hno) hreads⟩
    rw [hin, List.cons_append]
    exact noSemicolon_cons (by simp [hu]) _

theorem length_le_flatMap {uses : List (List Input × Outline)} (h : ∀ p ∈ uses, IsUse p.1 p.2) :
    uses.length ≤ (uses.flatMap (·.1)).length := by
  induction uses with
  | nil => exact Nat.zero_le _
  | cons p uses ih =>
    obtain ⟨hp, h⟩ := List.forall_mem_cons.1 h
    obtain ⟨u, us, hin, -⟩ := hp.keyword
    have := ih h
    rw [List.flatMap_cons, List.length_append, hin, List.length_cons, List.length_cons]
    omega

theorem depthOf_le {uses : List (List Input × Outline)} {p : List Input × Outline} (h : p ∈ uses)
    (hle : (uses.flatMap (·.1)).length ≤ input.length) : depthOf p.1 ≤ depthOf input := by
  have hp : p.1.length ≤ (uses.flatMap (·.1)).length := by
    rw [List.flatMap_def]
    exact (List.sublist_flatten_of_mem (List.mem_map_of_mem h)).length_le
  unfold depthOf
  omega

/-- A file with a use, behind which others are put. -/
theorem outlineOf_behind_use {A B : List Outline} {U : Outline}
    (hc : outlineOf input = (A ++ U :: B, [])) (hU : U.kind? = some .useItem) :
    U.EndsInToken ∧ (∀ o ∈ B, o.kind?.isSome) ∧
      ∃ us u back, input = us ++ u :: back ∧ u.kind = .semi ∧ (∃ v ∈ us, v.kind = .useKw) ∧
        Covers (leavesAll (A ++ [U])) (us ++ [u]) ∧
        ∀ uses : List (List Input × Outline), (∀ p ∈ uses, IsUse p.1 p.2) →
          outlineOf (us ++ u :: (uses.flatMap (·.1) ++ back)) =
            (A ++ U :: (uses.map (·.2) ++ B), []) := by
  obtain ⟨head, items, mid, hos, hmark, hhead, hitems, hlength⟩ := exists_of_outlineOf hc
  -- the use is none of the marks the file starts with
  obtain ⟨C, rfl, rfl⟩ : ∃ C, A = head ++ C ∧ items = C ++ U :: B := by
    rcases List.append_eq_append_iff.1 hos with ⟨C, rfl, hC⟩ | ⟨C, rfl, rfl⟩
    · cases C with
      | nil => exact ⟨[], by simp, hC.symm⟩
      | cons o C =>
        obtain ⟨rfl, -⟩ := List.cons.inj hC
        rcases hmark U (by simp) with h | h <;> rw [hU] at h <;> cases h
    · exact ⟨C, rfl, rfl⟩
  obtain ⟨m, hC, hUB⟩ := hitems.split
  cases hUB with
  | @cons _ back _ _ _ hitem hB =>
  obtain ⟨hno, hends, vs, u, rfl, hu, huse, hread⟩ := hitem.use hU
  have hseals : u.kind.seals = true := by rw [hu]; rfl
  -- what the use is read from stands at the end of the input
  have hmoves := (inferInstance : Built fileHead).moves (moves_solve (depthOf input)) ⟨input, [], []⟩
  rw [hhead] at hmoves
  obtain ⟨ws, rfl⟩ := (hC.moves []).rest.trans hmoves.rest
  have hcovers := ((hmoves.trans (hC.moves head.reverse)).trans (hitem.moves _)).covers
  refine ⟨hends, hB.isNode, ws ++ vs, u, back, by simp, hu, ?_, ?_, fun uses huses => ?_⟩
  · obtain ⟨v, hv, hk⟩ := huse
    exact ⟨v, List.mem_append_right _ hv, hk⟩
  · obtain ⟨taken, added, hin, hadded, hcovers⟩ := hcovers
    have htaken : ws ++ vs ++ [u] = taken := by
      refine List.append_cancel_right (show ws ++ vs ++ [u] ++ back = taken ++ back from ?_)
      simpa using hin
    have hleaves : leavesAll (head ++ C ++ [U]) = added := by simpa [leavesAll] using hadded
    rwa [htaken, hleaves]
  · set y := uses.flatMap (·.1) ++ back with hy
    have hxy : back.length ≤ y.length := by
      rw [hy, List.length_append]
      omega
    set input := ws ++ (vs ++ u :: back)
    have hd : depthOf input ≤ depthOf (ws ++ vs ++ u :: y) := by
      simp only [input, depthOf, List.length_append, List.length_cons]
      omega
    have hfront : Sealed (ws ++ vs ++ [u]) := ⟨_, u, rfl, hseals⟩
    have hcut : Cut back y ⟨input, [], []⟩ ⟨ws ++ vs ++ u :: y, [], []⟩ := by
      have := Cut.mk (x := back) (y := y) [] [] hfront
      simpa [input] using this
    have hmid := (hC.moves []).rest.length_le
    have hn : back.length < (vs ++ u :: back).length := by
      rw [List.length_append, List.length_cons]
      omega
    obtain ⟨-, hcut⟩ := ((inferInstance : Built fileHead).reads hxy
      (readsCalls_solve hxy hd)).again hcut (by rw [hhead]) (by rw [hhead]; exact Nat.lt_of_lt_of_le hn hmid)
    rw [hhead] at hcut
    obtain ⟨front, hsealed, rfl, hhead'⟩ := hcut.exists_front
    obtain ⟨front', -, hrest, hC'⟩ := hC.cut hsealed hn hxy hd
    obtain rfl : vs ++ [u] = front' := by
      refine List.append_cancel_right (show vs ++ [u] ++ back = front' ++ back from ?_)
      simpa using hrest
    have hdeep (p : List Input × Outline) (hp : p ∈ uses) :
        depthOf p.1 ≤ depthOf (ws ++ vs ++ u :: y) := by
      refine depthOf_le hp ?_
      simp only [hy, List.length_append, List.length_cons]
      omega
    obtain ⟨hsemi, huses'⟩ := ReadsItems.of_uses huses hdeep hno
    have hitems' := hC'.append (.cons (by simpa using hread hxy hd hsemi)
      (huses'.append (hB.deeper hd)))
    rw [outlineOf_of_items hhead' hitems', List.append_assoc]
    have hcount := length_le_flatMap huses
    simp only [hy, List.length_append, List.length_cons, List.length_map] at hlength ⊢
    omega

/-- A file without an interpreter's line, frontmatter and attributes, to the front of which uses
are put. -/
theorem outlineOf_in_front (hc : outlineOf input = (os, []))
    (hline : ∀ u ∈ input.head?, u.kind ≠ .shebang ∧ u.kind ≠ .frontmatter)
    (hattr : ∀ o ∈ os, o.kind? ≠ some .attr) :
    (∀ o ∈ os, o.kind?.isSome) ∧ ∀ uses : List (List Input × Outline),
      (∀ p ∈ uses, IsUse p.1 p.2) →
        outlineOf (uses.flatMap (·.1) ++ input) = (uses.map (·.2) ++ os, []) := by
  obtain ⟨head, items, mid, rfl, -, hhead, hitems, hlength⟩ := exists_of_outlineOf hc
  have hself := fileHead_eq_self (S := solve (depthOf input)) hline fun o ho => by
    rw [hhead] at ho
    exact hattr o (List.mem_append_left _ (List.mem_reverse.1 ho))
  rw [hhead] at hself
  obtain ⟨rfl, hmarks, -⟩ := State.mk.inj hself
  obtain rfl : head = [] := List.reverse_eq_nil_iff.1 hmarks
  have hno : NoSemicolon mid := by
    cases hitems with
    | nil => rfl
    | cons hitem _ => exact hitem.noSemicolon
  refine ⟨hitems.isNode, fun uses huses => ?_⟩
  rcases eq_or_ne uses [] with rfl | hne
  · exact hc
  have hd : depthOf mid ≤ depthOf (uses.flatMap (·.1) ++ mid) := by
    simp only [depthOf, List.length_append]
    omega
  have hdeep (p : List Input × Outline) (hp : p ∈ uses) :
      depthOf p.1 ≤ depthOf (uses.flatMap (·.1) ++ mid) :=
    depthOf_le hp (by rw [List.length_append]; omega)
  obtain ⟨-, huses'⟩ := ReadsItems.of_uses huses hdeep hno
  obtain ⟨u, us, hin, hu⟩ : ∃ u us, uses.flatMap (·.1) ++ mid = u :: us ∧ u.kind = .useKw := by
    obtain ⟨p, uses, rfl⟩ := List.exists_cons_of_ne_nil hne
    obtain ⟨u, us, hin, hu⟩ := (huses p (List.mem_cons_self ..)).keyword
    exact ⟨u, _, by rw [List.flatMap_cons, hin, List.cons_append, List.cons_append], hu⟩
  have hhead' : (fileHead (solve (depthOf (uses.flatMap (·.1) ++ mid)))
      ⟨uses.flatMap (·.1) ++ mid, [], []⟩).2 =
        ⟨uses.flatMap (·.1) ++ mid, List.reverse [], []⟩ := by
    rw [hin, fileHead_use hu]
    rfl
  have hcount := length_le_flatMap huses
  rw [outlineOf_of_items hhead' (huses'.append (hitems.deeper hd))]
  · rfl
  · simp only [List.length_append, List.length_map] at hlength ⊢
    omega

end Docsmith.Source.Grammar
