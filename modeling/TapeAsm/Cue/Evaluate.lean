import TapeAsm.Cue.Node

/-!
# Evaluation

The value of a node is what all its statements say together. Names are replaced by what is said
about the nodes they stand for, so that the statements left say something by themselves
(`primitive`); then options are tried one by one (`alternatives`), and what remains is put
together part by part (`evaluate`).

A name that leads back to its own node says nothing. A node all of whose statements come from a
node around it would have parts without end, and is a conflict. Two lists of places keep
evaluation from running in circles: the places whose statements are being collected (`busy`),
where only the declarations that are written out count, and the places whose value is being
computed (`visiting`), whose value is unknown. The number in every function bounds the depth of
the rules applied.
-/

set_option autoImplicit false

namespace TapeAsm.Cue

/-- What an evaluation is in the middle of. -/
structure Progress where
  /-- The places whose statements are being collected. -/
  busy : List Place := []
  /-- The places whose value is being computed. -/
  visiting : List Place := []

/-- Is the operand written in a way that leaves no datum to operate on? -/
def isFixedKind (scopes : List Scope) : Expr → Bool
  | .name n => (resolve? scopes n).isNone && (kindsOf? n).isSome
  | .unary (.bound _) _ => true
  | _ => false

/-- Is a part of a definition, or the definition itself, at the place? -/
def isDefinition (place : Place) : Bool := place.any fun
  | .field label => label.kind = .definition
  | _ => false

/-- The value that taking a part of a value without that part leads to. -/
def withoutPart (kind : Kind) : Value → Value
  | .struct _ => if kind = .struct then .unknown else .conflict
  | v => lacking [kind] v

mutual

/-- The statements that a statement about a node comes down to. -/
def flatten : (fuel : Nat) → Progress → Node → Statement → List Statement
  | 0, _, _, _ => [.known .unknown]
  | fuel + 1, p, node, s =>
    match s with
    | .holds scopes e trail =>
      let refer : List Statement :=
        match locate fuel p node.place scopes e with
        | .ok target => follow fuel p node trail target
        | .error v => [.known v]
      match e with
      | .name _ => refer
      | .select _ _ => refer
      | .index _ _ => refer
      | .binary .conjunction a b =>
        flatten fuel p node (.holds scopes a trail) ++ flatten fuel p node (.holds scopes b trail)
      | .call (.name f) [a] =>
        if plainName f = "close" ∧ (resolve? scopes f).isNone then
          let parts := flatten fuel p node (.holds scopes a trail)
          let inner := Node.mk node.place [.holds scopes a trail]
          .within inner false :: parts
        else [s]
      | .struct decls =>
        let inner := Scope.struct (declaredNames decls) node :: scopes
        let own := Decl.withoutEmbedded decls
        let embedded := decls.filter fun d => d.isEmbedded && !d.isAnything
        let parts := embedded.flatMap fun d =>
          match generate fuel p node.place inner d with
          | .ok generated => generated.flatMap fun (scopes, e) =>
            flatten fuel p node (.holds scopes e trail)
          | .error v => [.known v]
        let parts := parts.map fun
          | .within _ deep => .within (.mk node.place [s]) deep
          | part => part
        (if own.all Decl.isAnything && !own.isEmpty then []
          else [.holds scopes (.struct own) trail]) ++
          parts
      | _ => [s]
    | s => [s]

/-- The statements about a node that another node makes. -/
def follow : (fuel : Nat) → Progress → Node → Trail → (target : Node) → List Statement
  | 0, _, _, _, _ => [.known .unknown]
  | fuel + 1, p, node, trail, target =>
    if target.place = node.place ∨ trail.here.contains target.place then []
    else
      let isAround := target.place.isSuffixOf node.place
      let cyclic := trail.cyclic || isAround || trail.above.contains target.place
      let statements := target.statements.flatMap fun
        | .holds scopes e t =>
          flatten fuel p node (.holds scopes e
            ⟨target.place :: trail.here, trail.above ++ t.above, cyclic || t.cyclic⟩)
        | s => [s]
      if isDefinition target.place then .within target true :: statements else statements

/-- The statements about a node that say something by themselves. While they are being collected,
only the declarations that are written out. -/
def primitive : (fuel : Nat) → Progress → Node → List Statement
  | 0, _, _ => [.known .unknown]
  | fuel + 1, p, node =>
    if p.busy.contains node.place then node.statements.filterMap Statement.shallow?
    else node.statements.flatMap (flatten fuel { p with busy := node.place :: p.busy } node)

/-- The scopes and expressions that a declaration gives that holds of a whole. -/
def generate : (fuel : Nat) → Progress → Place → List Scope → Decl →
    Except Value (List (List Scope × Expr))
  | 0, _, _, _, _ => .error .unknown
  | fuel + 1, p, place, scopes, d =>
    match d with
    | .embed e => .ok [(scopes, e)]
    | .whenever condition d =>
      match operand fuel p place scopes condition with
      | .scalar (.bool true) => generate fuel p place scopes d
      | .scalar (.bool false) => .ok []
      | v => .error (lacking [.bool] v)
    | .forEach key value source d => do
      let node ← locate fuel p place scopes source
      let parts ← partsOf fuel p node
      let later ← parts.mapM fun (k, part) =>
        let names := (value, part) ::
          (key.map fun n => (n, Node.mk (.operand :: place) [.known k])).toList
        generate fuel p place (.each names :: scopes) d
      .ok later.flatten
    | _ => .ok []

/-- The parts of a list or struct with their indexes or names. -/
def partsOf : (fuel : Nat) → Progress → Node → Except Value (List (Value × Node))
  | 0, _, _ => .error .unknown
  | fuel + 1, p, node => do
    let node ← settle fuel p node
    match listOf fuel p node with
    | some (items, _) =>
      .ok (items.zipIdx.map fun (ss, i) =>
        (.scalar (.number (.ofInt i)), .mk (.item i :: node.place) ss))
    | none =>
      if node.hasDeclarations then
        let regular := (entries fuel p node).filter fun e =>
          e.presence = .regular && e.label.kind = .regular
        .ok (regular.map fun e =>
          (.scalar (.text e.label.name), .mk (.field e.label :: node.place) e.statements))
      else .error (lacking [.list, .struct] (operandValue fuel p node))

/-- The node of an operand. -/
def locate : (fuel : Nat) → Progress → Place → List Scope → Expr → Except Value Node
  | 0, _, _, _, _ => .error .unknown
  | fuel + 1, p, place, scopes, e =>
    match e with
    | .name n =>
      match resolve? scopes n with
      | some (.part node label) => part fuel p node (.field label)
      | some (.whole node) => .ok node
      | none => .error ((predeclared? n).getD .conflict)
    | .select e label => do part fuel p (← locate fuel p place scopes e) (.field label)
    | .index e i => do
      let node ← locate fuel p place scopes e
      match operand fuel p place scopes i with
      | .scalar (.text name) => part fuel p node (.field (.regular name))
      | .scalar (.number n) =>
        match n.int? with
        | some k => if 0 ≤ k then part fuel p node (.item k.toNat) else .error .conflict
        | none => .error .conflict
      | v => .error (lacking [.int, .text] v)
    | e => .ok (.mk (.operand :: place) [.holds scopes e {}])

/-- The part of a node behind a step. -/
def part : (fuel : Nat) → Progress → Node → Step → Except Value Node
  | 0, _, _, _ => .error .unknown
  | fuel + 1, p, node, step => do
    let node ← settle fuel p node
    match step with
    | .item i =>
      match listOf fuel p node with
      | some (items, isOpen) =>
        match items[i]? with
        | some ss => .ok (.mk (step :: node.place) ss)
        | none => .error (if isOpen then .unknown else .conflict)
      | none => .error (withoutPart .list (operandValue fuel p node))
    | .field label =>
      match (entries fuel p node).find? fun e => e.label = label with
      | some e =>
        if e.presence = .regular then .ok (.mk (step :: node.place) e.statements)
        else .error .unknown
      | none =>
        if label.kind = .regular && !(permits fuel p node label) then .error .conflict
        else .error (withoutPart .struct (operandValue fuel p node))
    | .operand => .error .unknown

/-- The node with its preferred options taken. -/
def settle : (fuel : Nat) → Progress → Node → Except Value Node
  | 0, _, _ => .error .unknown
  | fuel + 1, p, node =>
    let flat := primitive fuel p node
    match splitDisjunction flat with
    | none => .ok (.mk node.place flat)
    | some _ =>
      if p.visiting.contains node.place then .error .unknown
      else
        match Alternative.settled? (alternatives fuel p node) with
        | some a => .ok a.node
        | none => .error .unknown

/-- The parts of a struct whose statements say something by themselves. -/
def entries : (fuel : Nat) → Progress → Node → List Entry
  | 0, _, _ => []
  | fuel + 1, p, node =>
    let inside : Progress := { p with busy := node.place :: p.busy }
    let shallow := p.busy.contains node.place
    let declared := node.statements.flatMap fun
      | .holds scopes (.struct decls) trail =>
        let scopes := Scope.struct (declaredNames decls) node :: scopes
        let entry (label : Label) (presence : Presence) (e : Expr) : Entry :=
          ⟨label, presence, [.holds scopes e trail.inward]⟩
        decls.flatMap fun
          | .field (.fixed label _) presence e => [entry label presence e]
          | .field (.computed l) presence e =>
            if shallow then []
            else
              match operand fuel inside node.place scopes l with
              | .scalar (.text name) => [entry (.regular name) presence e]
              | _ => []
          | .bind name e => [entry ⟨.binding, name⟩ .regular e]
          | _ => []
      | _ => []
    let patterns := node.statements.flatMap fun
      | .holds scopes (.struct decls) trail =>
        let scopes := Scope.struct (declaredNames decls) node :: scopes
        decls.filterMap fun
          | .field (.pattern l) _ e =>
            if shallow then none
            else some (operand fuel inside node.place scopes l,
              Statement.holds scopes e trail.inward)
          | _ => none
      | _ => []
    let groups := node.statements.filterMap fun
      | .within g true => some (g.place, if shallow then [] else entries fuel inside
          (.mk g.place (primitive fuel inside g)))
      | _ => none
    (Entry.group declared).map fun e =>
      let matching := patterns.filterMap fun (v, s) =>
        if e.label.kind = .regular && !(v.unify (.scalar (.text e.label.name))).isConflict then
          some s
        else none
      let within := groups.filterMap fun (place, es) =>
        (es.find? fun f => f.label = e.label).map fun f =>
          Statement.within (.mk (.field e.label :: place) f.statements) true
      { e with statements := e.statements ++ matching ++ within }

/-- May the node have a field with the label? -/
def permits : (fuel : Nat) → Progress → Node → Label → Bool
  | 0, _, _, _ => true
  | fuel + 1, p, node, label =>
    node.statements.all fun
      | .within g _ =>
        let group := Node.mk g.place (primitive fuel p g)
        let decls := group.statements.flatMap fun
          | .holds _ (.struct decls) _ => decls
          | _ => []
        let named := (entries fuel p group).any fun e => e.label = label
        let patterned := decls.any fun
          | .rest => true
          | .field (.pattern _) _ _ => true
          | _ => false
        !group.hasDeclarations || named || patterned
      | _ => true

/-- The items of a list, each with what is said about it, and whether the list may have more. Lists
without an end take as many items as the longest; others must have the same number. -/
def listOf : (fuel : Nat) → Progress → Node → Option (List (List Statement) × Bool)
  | 0, _, _ => none
  | fuel + 1, p, node =>
    let lists := node.statements.filterMap fun
      | .holds scopes (.list items rest) trail =>
        let expanded := items.flatMap fun d =>
          match generate fuel p node.place scopes d with
          | .ok generated => generated.map fun (scopes, e) =>
            Statement.holds scopes e trail.inward
          | .error v => [.known v]
        some (expanded, rest.map fun e => Statement.holds scopes e trail.inward)
      | _ => none
    if lists.isEmpty then none
    else
      let length := (lists.map (·.1.length)).foldl max 0
      let fits := lists.all fun (items, rest) => rest.isSome || items.length = length
      let items := (List.range length).map fun i => lists.filterMap fun (items, rest) =>
        match items[i]? with
        | some s => some s
        | none => rest
      some (if fits then items else [[.known .conflict]], lists.all (·.2.isSome))

/-- The value of an operand. -/
def operand : (fuel : Nat) → Progress → Place → List Scope → Expr → Value
  | 0, _, _, _, _ => .unknown
  | fuel + 1, p, place, scopes, e =>
    match locate fuel p place scopes e with
    | .ok node => (operandValue fuel p node).settled
    | .error v => v

/-- The value of a node that is needed for another. -/
def operandValue : (fuel : Nat) → Progress → Node → Value
  | 0, _, _ => .unknown
  | fuel + 1, p, node =>
    if p.visiting.contains node.place then .unknown
    else Alternative.toValue (alternatives fuel p node)

/-- The options of a node that are no conflict. -/
def alternatives : (fuel : Nat) → Progress → Node → List Alternative
  | 0, _, node => [⟨.open, node, .unknown⟩]
  | fuel + 1, p, node =>
    let p' : Progress := { p with visiting := node.place :: p.visiting }
    let flat := primitive fuel p' node
    match splitDisjunction flat with
    | none =>
      let node := Node.mk node.place flat
      [⟨.open, node, evaluate fuel p' node⟩]
    | some (before, (scopes, e, trail), behind) =>
      let options := disjuncts false e
      let anyMarked := options.any (·.1)
      Alternative.distinct (options.flatMap fun (marked, e) =>
        let node := Node.mk node.place (before ++ [.holds scopes e trail] ++ behind)
        (alternatives fuel p node).map fun a =>
          { a with preference := (Preference.ofMark anyMarked marked).join a.preference })

/-- The value that an expression without parts has by itself. -/
def leaf? : (fuel : Nat) → Progress → Place → Statement → Option Value
  | 0, _, _, _ => some .unknown
  | _ + 1, _, _, .known v => some v
  | _ + 1, _, _, .within _ _ => none
  | fuel + 1, p, place, .holds scopes e _ =>
    let value (e : Expr) : Value := operand fuel p place scopes e
    match e with
    | .literal s => some (.scalar s)
    | .bottom => some .conflict
    | .interpolation double parts => some (interpolate double (parts.map value))
    | .unary (.bound r) e =>
      match e with
      | .name n =>
        if (resolve? scopes n).isNone && (kindsOf? n).isSome && n ≠ "_" then some .conflict
        else some (bound r (value e))
      | e => some (bound r (value e))
    | .unary operator e =>
      if isFixedKind scopes e then some .conflict else some (applyUnary operator (value e))
    | .binary operator a b =>
      if isFixedKind scopes a || isFixedKind scopes b then some .conflict
      else
        match operator, a, b with
        | .equal, .bottom, e => some (.scalar (.bool (value e).known?.isNone))
        | .equal, e, .bottom => some (.scalar (.bool (value e).known?.isNone))
        | .compare .notEqual, .bottom, e => some (.scalar (.bool (value e).known?.isSome))
        | .compare .notEqual, e, .bottom => some (.scalar (.bool (value e).known?.isSome))
        | operator, a, b => some (applyBinary operator (value a) (value b))
    | .preferred _ => some .conflict
    | .call (.name f) args =>
      if (resolve? scopes f).isSome || !(functionNames.contains (plainName f)) then some .conflict
      else some (applyFunction (plainName f) (args.map value))
    | .call _ _ => some .conflict
    | _ => none

/-- What the computed labels of a struct that are no text make of it. -/
def labelTroubles : (fuel : Nat) → Progress → Node → List Value
  | 0, _, _ => [.unknown]
  | fuel + 1, p, node =>
    node.statements.flatMap fun
      | .holds scopes (.struct decls) _ =>
        let scopes := Scope.struct (declaredNames decls) node :: scopes
        decls.filterMap fun
          | .field (.computed l) _ _ =>
            match operand fuel { p with busy := node.place :: p.busy } node.place scopes l with
            | .scalar (.text _) => none
            | v => some (lacking [.text] v)
          | _ => none
      | _ => []

/-- The fields of a struct. One that is optional need not have a value. -/
def fieldsOf : (fuel : Nat) → Progress → Node → List Field
  | 0, _, _ => []
  | fuel + 1, p, node =>
    ((entries fuel p node).filter fun e => e.label.kind ≠ .binding).map fun e =>
      if e.presence = .optional then .mk e.label e.presence .any
      else .mk e.label e.presence (Alternative.toValue
        (alternatives fuel p (.mk (.field e.label :: node.place) e.statements)))

/-- The value of a node whose statements say something by themselves and leave no option. -/
def evaluate : (fuel : Nat) → Progress → Node → Value
  | 0, _, _ => .unknown
  | fuel + 1, p, node =>
    if node.isCyclic then .conflict
    else
      let leaves := node.statements.filterMap (leaf? fuel p node.place)
      match Value.unifyAll (leaves ++ labelTroubles fuel p node) with
      | .conflict => .conflict
      | base =>
        let fields := fieldsOf fuel p node
        let disallowed := fields.any fun f => f.label.kind = .regular &&
          f.presence ≠ .optional && !(permits fuel p node f.label)
        if disallowed || fields.any (·.value.isConflict) then .conflict
        else
          match node.isStruct, listOf fuel p node with
          | true, some _ => .conflict
          | true, none =>
            if !(base.allows .struct) then .conflict
            else if base.isUnknown then .unknown
            else .struct fields
          | false, some (items, _) =>
            let values := items.zipIdx.map fun (ss, i) =>
              Alternative.toValue (alternatives fuel p (.mk (.item i :: node.place) ss))
            if !(base.allows .list) || values.any Value.isConflict then .conflict
            else if base.isUnknown then .unknown
            else .list values
          | false, none => base

end

end TapeAsm.Cue
