import Docsmith.Proofs.Source.Grammar.Built

/-!
# The rules are built from steps

Every rule of the grammar is built from the steps of `Built`, so what holds of these holds of the
grammar.

* `built_ruleOf`: the rule of every goal is built from steps.
-/

namespace Docsmith.Source.Grammar

open TokenKind

set_option synthInstance.maxSize 8000

/-! ## Tokens and lists -/

instance : Built (takeOne isSegmentName) := .takeOne rfl
instance : Built (takeOne fun k => k.isMemberName) := .takeOne rfl
instance : Built (takeOne startsLiteral) := .takeOne rfl
instance : Built (takeOne fun k => k = .unsafeKw || k = .constKw || k = .asyncKw) := .takeOne rfl
instance : Built (takeOne fun k => k = .star || k = .bang || k = .minus) := .takeOne rfl

theorem built_take {k : TokenKind} {ks : List TokenKind} (hk : k ∈ ks)
    (hks : ∀ k ∈ ks, rCurly ∉ k.parts) : Built (take k) :=
  .take (hks k hk)

instance (message : String) (stop : TokenKind → Bool) : Built (recover message stop) := by
  unfold recover; infer_instance

instance (closing separator : TokenKind) (starts : TokenKind → Bool) {element : Rule Bool}
    [Holds (isOpen separator)] [Built element] :
    Built (elements closing separator starts element) := by unfold elements; infer_instance

instance (opening closing separator : TokenKind) (starts : TokenKind → Bool) {element : Rule Bool}
    [Holds (isOpen opening)] [Holds (isOpen closing)] [Holds (isOpen separator)] [Built element] :
    Built (delimited opening closing separator starts element) := by
  unfold delimited; infer_instance

instance (opening closing : TokenKind) {receiver : Rule Bool} {param : Rule Unit}
    [Holds (isOpen opening)] [Holds (isOpen closing)] [Built receiver] [Built param] :
    Built (params opening closing receiver param) := by unfold params; infer_instance

/-! ## Names, literals and blocks -/

instance (stop : TokenKind → Bool) : Built (nameOr stop) := by unfold nameOr; infer_instance
instance : Built name := by unfold name; infer_instance
instance : Built nameRef := by unfold nameRef; infer_instance
instance : Built nameRefOrIndex := by unfold nameRefOrIndex; infer_instance
instance : Built segmentName := by unfold segmentName; infer_instance

instance : Built nameRefOrSelf := by
  unfold nameRefOrSelf
  refine .bind inferInstance fun _ => ?_
  split <;> infer_instance

instance : Built lifetime := by unfold lifetime; infer_instance
instance : Built optRename := by unfold optRename; infer_instance
instance : Built optReturnType := by unfold optReturnType; infer_instance
instance : Built abi := by unfold abi; infer_instance

instance : Built errorBlock := by unfold errorBlock; infer_instance

instance (closing : TokenKind) : Built (trees closing) := by
  have : Built (takeOne fun k => k ≠ .rCurly) := .takeOne rfl
  unfold trees
  repeat' first | infer_instance | with_reducible constructor | intro _ | split

instance : Built tokenTree := by
  unfold tokenTree
  refine .bind inferInstance fun _ => ?_
  split <;> infer_instance

instance : Built macroArgs := by
  unfold macroArgs
  repeat' first | infer_instance | with_reducible constructor | intro _ | split

instance : Built expr := by unfold expr; infer_instance
instance : Built literal := by unfold literal; infer_instance
instance : Built stmtList := by unfold stmtList; infer_instance
instance : Built blockExpr := by unfold blockExpr; infer_instance

/-! ## Paths, generic arguments and bounds -/

instance : Built seesUsePath := by
  unfold seesUsePath
  refine .bind inferInstance fun _ => ?_
  split <;> infer_instance

instance : Built seesPath := by unfold seesPath; infer_instance
instance : Built noReceiver := by unfold noReceiver; infer_instance
instance : Built typeArg := by unfold typeArg; infer_instance
instance : Built exprArgs := by unfold exprArgs; infer_instance
instance : Built typeArgs := by unfold typeArgs; infer_instance

instance (place : PathPlace) : Built (pathArgs place) := by
  cases place <;> unfold pathArgs <;> infer_instance

instance (place : PathPlace) (first : Bool) : Built (pathSegment place first) := by
  unfold pathSegment
  infer_instance

instance (place : PathPlace) : Built (pathTail place) := by unfold pathTail; infer_instance
instance (place : PathPlace) : Built (path place) := by unfold path; infer_instance

instance : Built useBoundArgs := by
  unfold useBoundArgs
  repeat' first | infer_instance | with_reducible constructor | intro _ | split

instance : Built traitBound := by
  unfold traitBound
  repeat' first | infer_instance | with_reducible constructor | intro _ | split

instance : Built typeBound := by
  unfold typeBound
  repeat' first | infer_instance | with_reducible constructor | intro _ | split

instance : Built boundsTail := by unfold boundsTail; infer_instance
instance : Built boundList := by unfold boundList; infer_instance
instance : Built bounds := by unfold bounds; infer_instance
instance : Built dynBounds := by unfold dynBounds; infer_instance

instance : Built constArg := by
  unfold constArg
  repeat' first | infer_instance | with_reducible constructor | intro _ | split

instance : Answers isUnnamed namedArg := by
  unfold namedArg
  repeat' first | infer_instance | with_reducible constructor | intro _

instance : Built namedArg := by
  unfold namedArg
  repeat' first | infer_instance | with_reducible constructor | intro _

instance : Built genericArg := by
  unfold genericArg
  refine .bind inferInstance fun _ => ?_
  split <;> infer_instance

instance : Built genericArgs := by unfold genericArgs; infer_instance

/-! ## Types, attributes and where clauses -/

instance : Built ascription := by unfold ascription; infer_instance

instance (inner : Bool) : Built (attr inner) := by
  unfold attr
  repeat' first | infer_instance | with_reducible constructor | intro _ | split

instance : Built outerAttrs := by unfold outerAttrs; infer_instance
instance : Built innerAttrs := by unfold innerAttrs; infer_instance
instance : Built lifetimeParam := by unfold lifetimeParam; infer_instance
instance : Built typeParam := by unfold typeParam; infer_instance
instance : Built constParam := by unfold constParam; infer_instance

instance : Built genericParam := by
  unfold genericParam
  repeat' first | infer_instance | with_reducible constructor | intro _ | split

instance : Built optGenericParams := by unfold optGenericParams; infer_instance
instance : Built forBinder := by unfold forBinder; infer_instance
instance : Built wherePred := by unfold wherePred; infer_instance

instance : Built optWhereClause := by
  unfold optWhereClause
  repeat' first | infer_instance | with_reducible constructor | intro _ | split

instance : Built parenOrTupleType := by unfold parenOrTupleType; infer_instance

instance : Built ptrType := by
  unfold ptrType
  repeat' first | infer_instance | with_reducible constructor | intro _ | split

instance : Built arrayOrSliceType := by
  unfold arrayOrSliceType
  refine .nodeOf ?_ ?_
  repeat' first | infer_instance | with_reducible constructor | intro _ | split

instance : Built refType := by unfold refType; infer_instance
instance : Built variadic := by unfold variadic; infer_instance
instance : Built paramType := by unfold paramType; infer_instance
instance : Built fnPtrParam := by unfold fnPtrParam; infer_instance

instance : Built fnPtrType := by
  unfold fnPtrType
  infer_instance

instance (withBounds : Bool) : Built (forType withBounds) := by
  unfold forType
  repeat' first | infer_instance | with_reducible constructor | intro _ | split

instance (withBounds : Bool) : Built (pathType withBounds) := by unfold pathType; infer_instance

instance (withBounds : Bool) : Built (pathOrMacroType withBounds) := by
  unfold pathOrMacroType; infer_instance

instance (withBounds : Bool) : Built (anyType withBounds) := by
  unfold anyType
  refine .bind inferInstance fun _ => ?_
  split <;> infer_instance

/-! ## Built-in forms -/

instance : Built seesBuiltin := by unfold seesBuiltin; infer_instance
instance (w : String) : Built (eatWord w) := by unfold eatWord; infer_instance

instance (ws : List String) : Built (eatOneOf ws) := by
  induction ws with
  | nil => unfold eatOneOf; infer_instance
  | cons w ws ih => unfold eatOneOf; infer_instance

instance : Built offsetArgs := by unfold offsetArgs; infer_instance
instance : Built formatArgs := by unfold formatArgs; infer_instance

instance (word : Rule Bool) [Built word] : Built (wordList word) := by
  unfold wordList
  infer_instance

instance : Built asmOptions := by unfold asmOptions; infer_instance
instance : Built asmClobbers := by unfold asmClobbers; infer_instance
instance : Built asmRegister := by unfold asmRegister; infer_instance

instance : Built asmOperand := by
  unfold asmOperand
  infer_instance

instance : Built asmArgs := by
  unfold asmArgs
  repeat' first
    | infer_instance
    | with_reducible constructor
    | with_reducible apply Built.discard
    | intro _
    | split

instance : Built builtinExpr := by
  unfold builtinExpr
  infer_instance

/-! ## Patterns -/

instance (withSub : Bool) : Built (identPat withSub) := by unfold identPat; infer_instance
instance : Built boxPat := by unfold boxPat; infer_instance

instance (closing : TokenKind) : Built (patternList closing) := by
  unfold patternList; infer_instance

instance : Built recordPatField := by
  unfold recordPatField
  refine .bind inferInstance fun _ => ?_
  split <;> infer_instance

instance : Built recordPatFieldList := by unfold recordPatFieldList; infer_instance

instance : Built pathOrMacroPat := by
  unfold pathOrMacroPat
  repeat' first | infer_instance | with_reducible constructor | intro _ | split

instance : Built tuplePat := by unfold tuplePat; infer_instance

instance (stop : TokenKind → Bool) : Built (atomPat stop) := by
  unfold atomPat
  repeat' first | infer_instance | with_reducible constructor | intro _ | split

instance (stop : TokenKind → Bool) : Built (onePattern stop) := by
  unfold onePattern
  refine .bind inferInstance fun _ => .ite inferInstance ?_
  refine .bind inferInstance fun _ => .ite inferInstance ?_
  refine .bind inferInstance fun found => .ite ?_ inferInstance
  refine .firstSeen_bind inferInstance fun op hop => ?_
  have := built_take hop (by decide)
  dsimp only
  infer_instance

instance (stop : TokenKind → Bool) : Built (pattern stop) := by unfold pattern; infer_instance

/-! ## Expressions -/

instance : Built headExpr := by unfold headExpr; infer_instance

theorem Built.currentOperator_bind {β : Type} {f : Option (TokenKind × Nat × Bool) → Rule β}
    (hn : Built (f none))
    (hs : ∀ op ∈ (eq, 1, true) :: operators, Built (f (some op))) :
    Built (currentOperator >>= f) := by
  obtain ⟨heq, hops⟩ := List.forall_mem_cons.1 hs
  unfold currentOperator
  rw [bind_assoc]
  refine .bind inferInstance fun k => ?_
  rw [bind_assoc]
  refine .bind inferInstance fun seen => ?_
  split
  · rw [bind_assoc]
    refine .bind inferInstance fun seen => ?_
    rw [pure_bind]
    split
    · exact hn
    · exact heq
  · exact .firstSeen_bind hn hops

instance : Built currentOperator := by unfold currentOperator; infer_instance
instance : Built argList := by unfold argList; infer_instance

instance : Built recordExprField := by
  unfold recordExprField
  repeat' first | infer_instance | with_reducible constructor | intro _ | split

instance : Answers isUnnamed? recordExprField := by
  unfold recordExprField
  repeat' first | infer_instance | with_reducible constructor | intro _ | split

instance : Built recordExprFieldList := by unfold recordExprFieldList; infer_instance
instance : Built tupleExpr := by unfold tupleExpr; infer_instance
instance : Built arrayExpr := by unfold arrayExpr; infer_instance
instance : Built closureParam := by unfold closureParam; infer_instance

instance : Built closureExpr := by
  unfold closureExpr
  repeat' first | infer_instance | with_reducible constructor | intro _

instance : Built ifExpr := by unfold ifExpr; infer_instance
instance : Built loopBody := by unfold loopBody; infer_instance
instance : Built whileBody := by unfold whileBody; infer_instance
instance : Built forBody := by unfold forBody; infer_instance
instance : Answers isUnnamed loopBody := by unfold loopBody; infer_instance
instance : Answers isUnnamed whileBody := by unfold whileBody; infer_instance
instance : Answers isUnnamed forBody := by unfold forBody; infer_instance

instance : Built labelled := by
  unfold labelled
  repeat' first | infer_instance | with_reducible constructor | intro _ | split

instance : Built letExpr := by unfold letExpr; infer_instance
instance : Built matchArm := by unfold matchArm; infer_instance
instance : Built matchArmList := by unfold matchArmList; infer_instance
instance : Built matchExpr := by unfold matchExpr; infer_instance
instance : Built tryExprBlock := by unfold tryExprBlock; infer_instance
instance (limits : Limits) : Built (breakExpr limits) := by unfold breakExpr; infer_instance
instance : Built becomeExpr := by unfold becomeExpr; infer_instance

instance (kind : NodeKind) (keyword : TokenKind) [Holds (isUnnamed kind)]
    [Holds (isOpen keyword)] : Built (leadingKeyword kind keyword) := by
  unfold leadingKeyword
  infer_instance

instance (limits : Limits) : Built (pathExpr limits) := by unfold pathExpr; infer_instance
instance : Built markedBlock := by unfold markedBlock; infer_instance
instance : Built atomExpr.missing := by unfold atomExpr.missing; infer_instance

instance (limits : Limits) : Built (atomExpr limits) := by
  unfold atomExpr
  repeat' first | infer_instance | with_reducible constructor | intro _ | split

instance : Built dotExpr := by unfold dotExpr; infer_instance

instance (outcome : Outcome) (mayCall : Bool) : Built (postfixExpr outcome mayCall) := by
  unfold postfixExpr
  repeat' first | infer_instance | with_reducible constructor | intro _ | split

instance (limits : Limits) : Built (operand limits) := by
  unfold operand
  refine .bind inferInstance fun k => ?_
  split
  · repeat' first | infer_instance | with_reducible constructor | with_reducible apply Built.ite | intro _ | split
  iterate 3 infer_instance
  · refine .firstSeen_bind inferInstance fun op hop => ?_
    have := built_take hop (by decide)
    dsimp only
    infer_instance

instance (limits : Limits) (power : Nat) : Built (operatorTail limits power) := by
  unfold operatorTail
  refine .discard (.iterate _ fun limits => .currentOperator_bind inferInstance fun op hop => ?_)
  have hops : ∀ op ∈ (eq, 1, true) :: operators, rCurly ∉ op.1.parts := by decide
  have := Built.take (hops op hop)
  dsimp only
  infer_instance

instance (limits : Limits) (power : Nat) : Built (exprHere limits power) := by
  unfold exprHere; infer_instance

instance (limits : Limits) (power : Nat) : Built (exprWithAttrs limits power) := by
  unfold exprWithAttrs; infer_instance

instance (mustClose : Bool) : Built (letBody mustClose) := by
  unfold letBody
  repeat' first | infer_instance | with_reducible constructor | intro _

/-! ## Items and statements -/

instance (inTuple : Bool) : Built (optVisibility inTuple) := by
  unfold optVisibility
  repeat' first | infer_instance | with_reducible constructor | intro _ | split

instance : Built useTreeList := by unfold useTreeList; infer_instance

instance (top : Bool) : Built (useTree top) := by
  unfold useTree
  repeat' first | infer_instance | with_reducible constructor | intro _ | split

instance : Built recordField := by unfold recordField; infer_instance
instance : Answers isUnnamed? recordField := by unfold recordField; infer_instance
instance : Built recordFieldList := by unfold recordFieldList; infer_instance
instance : Built tupleField := by unfold tupleField; infer_instance
instance : Built tupleFieldList := by unfold tupleFieldList; infer_instance

instance (isStruct : Bool) : Built (structBody isStruct) := by
  unfold structBody
  repeat' first | infer_instance | with_reducible constructor | intro _ | split

instance : Built enumVariant := by
  unfold enumVariant
  repeat' first | infer_instance | with_reducible constructor | intro _ | split

instance : Built variantList := by unfold variantList; infer_instance
instance : Built receiverName := by unfold receiverName; infer_instance
instance : Built receiver := by unfold receiver; infer_instance
instance : Built fnParam := by unfold fnParam; infer_instance

instance : Built fnBody := by
  unfold fnBody
  repeat' first | infer_instance | with_reducible constructor | intro _ | split

instance (blocks inExtern : Bool) : Built (member blocks inExtern) := by
  unfold member; infer_instance

instance (blocks inExtern : Bool) : Built (members blocks inExtern) := by
  unfold members; infer_instance

instance : Built (memberList .assocItemList true false) := .members inferInstance

instance (kind : NodeKind) (blocks inExtern : Bool) [Holds (isPlainList kind)]
    [Holds (isUnnamed kind)] : Built (memberList kind blocks inExtern) := by unfold memberList; infer_instance

instance : Answers isUnnamed traitBody := by unfold traitBody; infer_instance
instance : Built traitBody := by unfold traitBody; infer_instance

instance : Built seesImplParams := by
  unfold seesImplParams
  repeat' first | infer_instance | with_reducible constructor | intro _ | split

instance : Built implType := by unfold implType; infer_instance

instance : Built implBody := by
  unfold implBody
  repeat' first | infer_instance | with_reducible constructor | intro _

instance : Built constBody := by
  unfold constBody
  repeat' first | infer_instance | with_reducible constructor

instance : Built staticBody := by
  unfold staticBody
  repeat' first | infer_instance | with_reducible constructor | intro _ | split

instance : Built typeAliasBody := by unfold typeAliasBody; infer_instance

instance : Built moduleBody := by
  unfold moduleBody
  infer_instance

instance : Built macroRulesBody := by
  unfold macroRulesBody
  repeat' first | infer_instance | with_reducible constructor | intro _ | split

instance : Built macroDefBody := by
  unfold macroDefBody
  repeat' first | infer_instance | with_reducible constructor | intro _ | split

instance : Built plainItem := by
  unfold plainItem
  repeat' first | infer_instance | with_reducible constructor | intro _ | split

instance : Answers isUnnamed? plainItem := by
  unfold plainItem
  repeat' first | infer_instance | with_reducible constructor | intro _ | split

instance (k : TokenKind) (follows : TokenKind → Bool) [Holds (isOpen k)] :
    Built (keywordUnless k follows) := by unfold keywordUnless; infer_instance

instance (w : String) (follows : TokenKind → Bool) : Built (wordBefore w follows) := by
  unfold wordBefore; infer_instance

instance : Built optAbi := by unfold optAbi; infer_instance
instance : Built optDefault := by unfold optDefault; infer_instance
instance (inExtern : Bool) : Built (modifiers inExtern) := by
  unfold modifiers
  infer_instance

instance (marked external : Bool) : Built (itemBehind marked external) := by
  unfold itemBehind
  repeat' first | infer_instance | with_reducible constructor | intro _ | split

instance (marked external : Bool) : Answers isUnnamed? (itemBehind marked external) := by
  unfold itemBehind
  repeat' first | infer_instance | with_reducible constructor | intro _ | split

instance (visible inExtern : Bool) : Answers isUnnamed? (modifiedItem visible inExtern) := by
  unfold modifiedItem; infer_instance

instance (visible inExtern : Bool) : Answers isUnnamed? (plainOrModifiedItem visible inExtern) := by
  unfold plainOrModifiedItem
  refine .pass (q := isUnnamed?) inferInstance fun kind hk => ?_
  split
  · exact .pure hk
  · infer_instance

instance (inExtern : Bool) : Answers isUnnamed? (optItem inExtern) := by
  unfold optItem; infer_instance

instance (visible inExtern : Bool) : Built (modifiedItem visible inExtern) := by
  unfold modifiedItem; infer_instance

instance (visible inExtern : Bool) : Built (plainOrModifiedItem visible inExtern) := by
  unfold plainOrModifiedItem
  repeat' first | infer_instance | with_reducible constructor | intro _ | split

instance (inExtern : Bool) : Built (optItem inExtern) := by unfold optItem; infer_instance

instance : Built macroOrPath := by
  unfold macroOrPath
  infer_instance

instance : Answers leavesUnnamed macroOrPath := by unfold macroOrPath; infer_instance

instance (inExtern : Bool) : Answers leavesUnnamed (itemOrMacro inExtern) := by
  unfold itemOrMacro
  refine .pass (q := isUnnamed?) inferInstance fun kind hk => ?_
  split
  · exact .pure hk
  · infer_instance

instance (inExtern : Bool) : Built (itemOrMacro inExtern) := by
  unfold itemOrMacro
  repeat' first | infer_instance | with_reducible constructor | intro _ | split

instance (inBraces : Bool) (found : Found) : Built (afterItem inBraces found) := by
  unfold afterItem
  repeat' first | infer_instance | with_reducible constructor | intro _ | split

instance (inBraces inExtern : Bool) : Built (item inBraces inExtern) := by
  unfold item; infer_instance

instance : Built fileItems := by unfold fileItems; infer_instance

instance : Built stmt := by
  unfold stmt
  refine .bind inferInstance fun _ => .ite inferInstance (.nodeIf ?_ ?_)
  · repeat' first | infer_instance | with_reducible constructor | intro _ | split
  · refine .bind fun _ => .bind fun _ => .bind fun _ => .bind fun _ => .ite inferInstance ?_
    refine .pass (q := isUnnamed?) inferInstance fun kind hk => ?_
    split
    · exact .pure hk
    · infer_instance

instance : Built statements := by unfold statements; infer_instance

/-! ## The grammar -/

theorem built_ruleOf (g : Goal) : Built (ruleOf g) := by
  cases g <;> unfold ruleOf <;> try unfold plain
  all_goals infer_instance

end Docsmith.Source.Grammar
