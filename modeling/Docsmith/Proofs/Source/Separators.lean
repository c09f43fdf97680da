import Docsmith.Proofs.Source.Site
import Docsmith.Source.Registry

/-!
# Separators of lists

Items that are appended to a list go behind the last token in front of its closing bracket, with a
comma in front of them if one is missing. The comma is put directly behind that token. It is read as
a token, unless that token is a comment that ends with its line.

* `Spot.exists_preamble`: what stands in a list stands behind the preamble of the file;
* `comma_read_iff`: the lists whose new comma is read;
* `registerTypes_swallows_comma`: a registry that loses its new entry.
-/

namespace Docsmith.Source

open Lexer Token

variable {source new : String} {a b : Leaf} {front front' behind behind' : List Token}
  {t t' : Token} {holder holder' : Option NodeKind}

/-! ## Tokens in front -/

/-- Comments and blanks of a file are read behind its preamble. -/
theorem Token.exists_lex_of_ofSource {A B : List Token} (h : ofSource source = A ++ t :: B)
    (hk : t.kind.isTrivia = true) : ∃ cs A', lex cs = A' ++ t :: B := by
  have hnot : t ∉ preamble (Preamble.ofChars source.toList) source.toList := fun ht => by
    rcases kind_of_mem_preamble ht with h | h <;> rw [h] at hk <;> cases hk
  obtain ⟨A', -, hlex⟩ := exists_append_of_notMem h hnot
  exact ⟨_, A', hlex⟩

namespace Spot

/-- Of two leaves the one that starts first stands in front of the other. -/
theorem mem_front (h : Spot source holder a front t behind)
    (h' : Spot source holder' b front' t' behind') (hlt : b.start < a.start) : t' ∈ front := by
  have hstart := h.start
  have hstart' := h'.start
  rcases List.append_eq_append_iff.1 (h'.tokens.symm.trans h.tokens) with
    ⟨us, rfl, hus⟩ | ⟨us, rfl, -⟩
  · cases us with
    | nil =>
      rw [List.append_nil] at hstart
      omega
    | cons u us =>
      obtain ⟨rfl, -⟩ := List.cons.inj hus
      simp
  · rw [concat_append, List.length_append] at hstart'
    omega

variable (h : Spot source holder a front t behind)
include h

/-- Where a file has no blanks in front of a leaf, the last token in front of it is none. -/
theorem ne_whitespace_of_gapBefore? {g : Leaf} (hp : (File.read source).previous? a.start = some g)
    (hg : (File.read source).gapBefore? a.start = none) :
    ∀ u ∈ front.getLast?, u.kind ≠ .whitespace := by
  have hk : g.kind ≠ .whitespace := by
    intro hk
    rw [File.gapBefore?, hp] at hg
    simp [hk] at hg
  obtain ⟨front', run, rfl, -, -, hkinds⟩ := h.previous g hp
  intro u hu
  rcases hkinds with ⟨u', rfl, hku⟩ | ⟨hne, hsolid, -⟩
  · rw [List.getLast?_concat] at hu
    obtain rfl := Option.some.inj hu
    rwa [hku]
  · rw [List.getLast?_append_of_ne_nil _ hne] at hu
    intro hw
    have := hsolid u (List.mem_of_getLast? hu)
    rw [hw] at this
    cases this

/-- The tokens in front of a leaf start with the preamble, if they go on behind it. -/
theorem exists_preamble {p : Preamble} (hp : Preamble.ofChars? source.toList = some p)
    {rest ws : List Token} (hfront : front = rest ++ ws) {u : Token} (hu : u ∈ rest)
    (hk : u.kind ≠ .shebang ∧ u.kind ≠ .frontmatter) :
    ∃ A, rest = preamble p source.toList ++ A ∧ u ∈ A := by
  have htokens := h.tokens
  rw [hfront, List.append_assoc] at htokens
  exact exists_behind_preamble hp htokens hu hk

/-- Blanks in front of a leaf are one token. -/
theorem ne_whitespace_end {rest ws : List Token} {g : Leaf} (hfront : front = rest ++ ws)
    (hws : ∀ u ∈ ws, u.kind = .whitespace)
    (hp : (File.read source).previous? a.start = some g)
    (hnone : ws = [] → (File.read source).gapBefore? a.start = none) :
    ∀ u ∈ rest.getLast?, u.kind ≠ .whitespace := by
  intro u hu hk
  cases ws with
  | nil =>
    rw [List.append_nil] at hfront
    exact h.ne_whitespace_of_gapBefore? hp (hnone rfl) u (hfront ▸ hu) hk
  | cons w ws =>
    obtain ⟨init, rfl⟩ := List.getLast?_eq_some_iff.1 hu
    have htokens := h.tokens
    rw [hfront, List.append_assoc, List.append_assoc, List.singleton_append] at htokens
    obtain ⟨cs, A, hlex⟩ := exists_lex_of_ofSource htokens (by rw [hk]; rfl)
    obtain ⟨d, ds, hw⟩ := List.exists_cons_of_ne_nil
      (h.fits (u := w) (by rw [hfront]; simp)).nonempty
    have hblank : isBlank d = true :=
      (h.fits (u := w) (by rw [hfront]; simp)).blank (hws w (by simp)) d (by rw [hw]; simp)
    have hstop := head?_behind_whitespace hlex hk d (by simp [concat_cons, hw])
    rw [hblank] at hstop
    cases hstop

end Spot

/-! ## New commas -/

/-- A list between two brackets that stand directly in it. -/
structure Enclosed (list : Located) (o c : Leaf) : Prop where
  opening : o ∈ list.ownLeaves
  opens : o.kind = .lBrack ∨ o.kind = .lCurly
  closing : c ∈ list.ownLeaves
  closes : c.kind = .rBrack ∨ c.kind = .rCurly
  ordered : o.start < c.start

/-- A comma behind some tokens of a file is read, whatever follows it. -/
theorem ofSource_comma {p : Preamble} {A ws : List Token} {c : Char} {us : List Char}
    (hw : File.WellFormed source) (hp : Preamble.ofChars? source.toList = some p)
    (h : ofSource source = preamble p source.toList ++ A ++ (ws ++ t :: behind))
    (hws : ∀ u ∈ ws, u.kind = .whitespace) (hc : (t.kind, c) ∈ TokenKind.closers)
    (ht : t.text = String.ofList [c]) (hA : ∃ u ∈ A, u.kind ≠ .whitespace)
    (hlast : ∀ u ∈ A.getLast?, u.kind ≠ .whitespace ∧ ¬u.IsLineComment)
    (hnew : new.toList = concat (preamble p source.toList ++ A) ++ ',' :: us) :
    ofSource new = preamble p source.toList ++ A ++ ⟨.comma, ",", true⟩ :: lex us := by
  have hblank : ∀ b ∈ concat ws, isBlank b = true := by
    intro b hb
    obtain ⟨u, hu, hb⟩ := List.mem_flatMap.1 hb
    have hmem : u ∈ ofSource source := by rw [h]; simp [hu]
    exact (fits_of_mem_ofSource hmem).blank (hws u hu) b hb
  have hds : concat (ws ++ t :: behind) = concat ws ++ c :: concat behind := by
    rw [concat_append, concat_cons, ht, String.toList_ofList]
    rfl
  have hold : source.toList =
      concat (preamble p source.toList ++ A) ++ (concat ws ++ c :: concat behind) := by
    rw [← hds, ← concat_append, ← h, concat_ofSource]
  obtain ⟨hstop, hopen, hwhite⟩ : c ∈ stops ∧ c ≠ '[' ∧ Text.isWhite c = false := by
    rcases TokenKind.mem_closers hc with ⟨-, rfl⟩ | ⟨-, rfl⟩ | ⟨-, rfl⟩ <;>
      exact ⟨by decide, by decide, rfl⟩
  have hcomma : Halts (',' :: us) := halts_cons (by decide) us
  have hparts (u : Token) (hu : u ∈ A.getLast?) :
      Parts u (concat ws ++ c :: concat behind) (',' :: us) :=
    ⟨fun hl => absurd hl (hlast u hu).2, fun hk => absurd hk (hlast u hu).1⟩
  obtain ⟨-, htokens, -⟩ := ofSource_append hold hnew (halts_blanks hblank hstop _) hcomma
    (Preamble.opensNone_blanks hblank hopen hwhite _)
    (Preamble.opensNone_blanks (w := []) (by simp) (by decide) rfl us) (by simp) hp h rfl
    (fun u hu => (File.wellFormed_iff.1 hw).1 u (by rw [h]; simp [hu])) hA hparts
  rw [htokens, lex_sign ',' .comma rfl (by decide) (by decide +kernel) rfl]

theorem File.appendItems_of_lacksComma {f : File} {position : Nat}
    (h : lacksComma (f.before position) = true) (cs : List Char) (items : List (List Char))
    (inner : Option (List Char)) : ∃ lines, f.appendItems cs position items inner =
      f.insertBlock position (indentAt cs position) (',' :: lines) := by
  rw [appendItems, if_pos h]
  exact ⟨_, rfl⟩

/-- A list that lacks a comma has a token in front of its closing bracket. -/
theorem File.exists_previous_of_lacksComma {f : File} {position : Nat}
    (h : lacksComma (f.before position) = true) : ∃ g, f.previous? position = some g := by
  rw [previous?]
  cases hb : f.before position with
  | nil =>
    rw [hb] at h
    cases h
  | cons l rest =>
    cases l with
    | none =>
      rw [hb] at h
      cases h
    | some g => exact ⟨g, rfl⟩

/-- Where a list lacks a comma behind its last element, the comma that is put behind the last token
in front of its closing bracket is read as a token, exactly if that token is no comment that ends
with its line. -/
theorem comma_read_iff {list : Located} {o c : Leaf} {items : List (List Char)}
    {inner : Option (List Char)} (hw : File.WellFormed source)
    (hp : (Preamble.ofChars? source.toList).isSome) (hlist : list ∈ (File.read source).nodes)
    (hk : list.kind? ≠ some .sourceFile) (he : Enclosed list o c)
    (hlacks : File.lacksComma ((File.read source).before c.start) = true)
    (hnew : new.toList = Edit.applyAll source.toList
      [(File.read source).appendItems source.toList c.start items inner]) :
    ∃ front gap behind, ofSource source = front ++ gap ++ behind ∧
      (concat (front ++ gap)).length = c.start ∧ (∀ t ∈ gap, t.kind = .whitespace) ∧
      (∀ t ∈ front.getLast?, t.kind ≠ .whitespace) ∧
      ((∃ rest, ofSource new = front ++ ⟨.comma, ",", true⟩ :: rest) ↔
        ∀ t ∈ front.getLast?, ¬t.IsLineComment) := by
  obtain ⟨p, hp⟩ := Option.isSome_iff_exists.1 hp
  obtain ⟨closer, hcloser⟩ : ∃ ch, (c.kind, ch) ∈ TokenKind.closers := by
    rcases he.closes with h | h <;> rw [h]
    · exact ⟨_, List.mem_cons_of_mem _ List.mem_cons_self⟩
    · exact ⟨_, List.mem_cons_self⟩
  rw [File.nodes_eq] at hlist
  obtain ⟨front, t, behind, h⟩ := exists_spot hw hlist hk he.closing
    (by rcases he.closes with h | h <;> rw [h] <;> rfl)
  obtain ⟨front', t', behind', h'⟩ := exists_spot hw hlist hk he.opening
    (by rcases he.opens with h | h <;> rw [h] <;> rfl)
  have ht := h.eq_closer hcloser
  have hmem := h.mem_front h' he.ordered
  -- the token of the opening bracket is none of the preamble, and not blank
  have hkind : t'.kind = o.kind := by
    have hheads := h'.heads
    rcases he.opens with hk | hk <;> rw [hk] at hheads ⊢ <;>
      exact hheads.elim id fun h => (Option.some.inj h).symm
  obtain ⟨hsolid, hpreamble⟩ : t'.kind ≠ .whitespace ∧
      (t'.kind ≠ .shebang ∧ t'.kind ≠ .frontmatter) := by
    rcases he.opens with hk | hk <;> rw [hkind, hk] <;> decide
  obtain ⟨lines, happend⟩ := File.appendItems_of_lacksComma hlacks source.toList items inner
  obtain ⟨rest, ws, gap, hfront, hws, hnone, -, -, hedit⟩ :=
    h.apply_insertBlock (blank_indentAt source.toList c.start) (',' :: lines)
  rw [happend, hedit, List.append_assoc, List.append_assoc, List.cons_append] at hnew
  have hrest : t' ∈ rest := (List.mem_append.1 (hfront ▸ hmem)).resolve_right fun hm =>
    hsolid (hws _ hm)
  obtain ⟨A, rfl, hA⟩ := h.exists_preamble hp hfront hrest hpreamble
  have htokens : ofSource source = preamble p source.toList ++ A ++ (ws ++ t :: behind) := by
    rw [h.tokens, hfront, List.append_assoc]
  have hlast : ∀ u ∈ (preamble p source.toList ++ A).getLast?, u.kind ≠ .whitespace := by
    obtain ⟨g, hg⟩ := File.exists_previous_of_lacksComma hlacks
    exact h.ne_whitespace_end hfront hws hg hnone
  refine ⟨_, ws, t :: behind, by rw [htokens, ← List.append_assoc], ?_, hws, hlast, ?_, ?_⟩
  · rw [← hfront, h.start]
  · rintro ⟨more, hmore⟩ u hu hline
    obtain ⟨init, hinit⟩ := List.getLast?_eq_some_iff.1 hu
    rw [hinit, List.append_assoc, List.singleton_append] at hmore
    obtain ⟨cs, A', hlex⟩ := exists_lex_of_ofSource hmore (by rw [hline.1]; rfl)
    have hbreak : ',' = '\n' := head?_behind_lineComment hlex hline ',' rfl
    exact absurd hbreak (by decide)
  · intro hline
    have hend (u : Token) (hu : u ∈ A.getLast?) : u ∈ (preamble p source.toList ++ A).getLast? := by
      rwa [List.getLast?_append_of_ne_nil _ (List.ne_nil_of_mem hA)]
    exact ⟨_, ofSource_comma hw hp htokens hws (by rw [ht]; exact hcloser) (by rw [ht])
      ⟨t', hA, hsolid⟩ (fun u hu => ⟨hlast u (hend u hu), hline u (hend u hu)⟩) hnew⟩

/-- A registry with a comment behind its last entry. -/
def trailedRegistry : String := "const EXTERNAL_MODEL_TYPES: [A; 1] = [A // a\n];"

theorem comma_read_trailed :
    ∃ list o c, list ∈ (File.read trailedRegistry).nodes ∧ Enclosed list o c ∧
      File.lacksComma ((File.read trailedRegistry).before c.start) = true ∧
      ∀ items inner, ∃ front gap behind, ofSource trailedRegistry = front ++ gap ++ behind ∧
        (concat (front ++ gap)).length = c.start ∧ (∀ t ∈ gap, t.kind = .whitespace) ∧
        (∀ t ∈ front.getLast?, t.kind ≠ .whitespace) ∧
        ((∃ rest, ofSource (String.ofList (Edit.applyAll trailedRegistry.toList
            [(File.read trailedRegistry).appendItems trailedRegistry.toList c.start items inner])) =
              front ++ ⟨.comma, ",", true⟩ :: rest) ↔
          ∀ t ∈ front.getLast?, ¬t.IsLineComment) := by
  have hfound : ((File.read trailedRegistry).nodes.find? (Located.is .arrayExpr)).any (fun list =>
      (list.token? .lBrack).any fun o => (list.token? .rBrack).any fun c =>
        o.start < c.start && File.lacksComma ((File.read trailedRegistry).before c.start)) =
      true := by decide +kernel
  obtain ⟨list, hfind, hfound⟩ := (Option.any_eq_true ..).1 hfound
  obtain ⟨o, ho, hfound⟩ := (Option.any_eq_true ..).1 hfound
  obtain ⟨c, hc, hfound⟩ := (Option.any_eq_true ..).1 hfound
  rw [Bool.and_eq_true, decide_eq_true_iff] at hfound
  obtain ⟨hlt, hlacks⟩ := hfound
  have hlist := List.mem_of_find?_eq_some hfind
  have hkind := Located.kind?_of_is (List.find?_some hfind)
  have ho := Located.mem_ownLeaves_of_token? ho
  have hc := Located.mem_ownLeaves_of_token? hc
  have he : Enclosed list o c := ⟨ho.1, .inl ho.2, hc.1, .inl hc.2, hlt⟩
  exact ⟨list, o, c, hlist, he, hlacks, fun items inner => comma_read_iff (by decide +kernel)
    (by decide +kernel) hlist (by rw [hkind]; decide) he hlacks String.toList_ofList⟩

/-! ## A registry -/

/-- The entries of a registry, as they are read. -/
def registryEntries? (source binding : String) : Option (List String) :=
  (registryArray? (File.read source) binding).map fun array => (elements array).map (·.text)

/-- The registry with one more entry, and the comma in front of it inside the comment. -/
def swallowedComma : String :=
  "const EXTERNAL_MODEL_TYPES: [A; 1] = [A // a,\n    TypeId::of::<B>(),\n];"

/-- The comma goes into the comment, and the entry behind it is not read. -/
theorem registerTypes_swallows_comma :
    File.WellFormed trailedRegistry ∧
      registryEntries? trailedRegistry "EXTERNAL_MODEL_TYPES" = some ["A"] ∧
      (registerTypes trailedRegistry "EXTERNAL_MODEL_TYPES" ["B"]).toOption =
        some ⟨trailedRegistry, swallowedComma⟩ ∧
      registryEntries? swallowedComma "EXTERNAL_MODEL_TYPES" = some ["A"] ∧
      ¬File.WellFormed swallowedComma := by
  refine ⟨by decide +kernel, by decide +kernel, ?_, by decide +kernel, by decide +kernel⟩
  unfold registerTypes File.appendItems
  simp only [File.insertBlock_eq]
  decide +kernel

end Docsmith.Source
