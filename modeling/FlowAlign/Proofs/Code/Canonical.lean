import FlowAlign.Function
import FlowAlign.Proofs.Code.Order
import FlowAlign.Proofs.Graph.Reachable

/-!
Canonical graphs of functions. Building one cannot fail when there is an instruction and the family has
an opcode table, and what is handed out has passed its check.
-/

namespace FlowAlign

theorem Opcode.opcodeClass?_isSome {family : Family} (hasTable : (Opcode.classes? family).isSome)
    (instruction : Instruction) : (Opcode.opcodeClass? family instruction).isSome := by
  obtain ⟨table, found⟩ := Option.isSome_iff_exists.mp hasTable
  simp only [Opcode.opcodeClass?]
  split
  · simp
  · split
    · simp
    · simp only [Opcode.sequentialClass?, found]
      split
      · simp
      · split <;> simp

theorem Format.classes?_isSome (format : Format) : (Opcode.classes? format.family).isSome := by
  cases format <;> rfl

namespace Code

def tokenOf (family : Family) (instruction : Instruction) : Token :=
  (token? family instruction).getD { opcode := "" }

theorem normalize_outcome {family : Family} (hasTable : (Opcode.classes? family).isSome)
    (instruction : Instruction) :
    (normalize family instruction).outcome = .ok (tokenOf family instruction) := by
  have found : (token? family instruction).isSome := by
    simp only [token?]
    split
    · simp
    · simpa using Opcode.opcodeClass?_isSome hasTable instruction
  obtain ⟨token, isToken⟩ := Option.isSome_iff_exists.mp found
  simp only [normalize, tokenOf, isToken, Logged.outcome_bind, Logged.outcome_leave,
    Outcome.ok_bind, Logged.outcome_pure, Option.getD_some]

def canonicalBlock (family : Family) (blocks : List CodeBlock) (order : List Nat) (position : Nat)
    (block : CodeBlock) : Block :=
  { id := position
    tokens := block.instructions.map (tokenOf family)
    edges := canonicalEdges blocks order position block }

theorem canonicalBlocks_outcome {family : Family} (hasTable : (Opcode.classes? family).isSome)
    (blocks : List CodeBlock) (order : List Nat) : ∀ (rest : List CodeBlock) (position : Nat),
    (canonicalBlocks family blocks order position rest).outcome =
      .ok ((rest.zipIdx position).map fun (block, place) =>
        canonicalBlock family blocks order place block) := by
  intro rest
  induction rest with
  | nil =>
      intro position
      rfl
  | cons block rest ih =>
      intro position
      have tokens : (block.instructions.mapM (normalize family)).outcome =
          .ok (block.instructions.map (tokenOf family)) := by
        rw [Logged.outcome_mapM]
        exact Outcome.mapM_ok fun instruction _ => normalize_outcome hasTable instruction
      simp only [canonicalBlocks, Logged.outcome_bind, tokens, ih, Outcome.ok_bind,
        Logged.outcome_pure]
      rfl

def graphOf (name : String) (blocks : List CodeBlock) (family : Family)
    (labels : List (Int × String)) (base : Int) (order : List Nat) : FlowGraph :=
  let ordered := order.filterMap fun position => blocks[position]?
  let dropped := blocks.length - order.length
  { name := name
    blocks := (ordered.zipIdx 0).map fun (block, place) =>
      canonicalBlock family blocks order place block
    display := sideTable labels base ordered
    warnings := if dropped = 0 then [] else [droppedWarning name dropped] }

/-- Building a graph puts the blocks in order and checks the result. -/
theorem build_outcome {family : Family} (hasTable : (Opcode.classes? family).isSome)
    (name : String) {blocks : List CodeBlock} (nonempty : blocks ≠ [])
    (labels : List (Int × String)) (base : Int) {order : List Nat}
    (linear : linearize blocks = .ok order) :
    (build name blocks family labels base).outcome =
      ((graphOf name blocks family labels base order).check.mapError Fault.graph >>= fun _ =>
        .ok (graphOf name blocks family labels base order)) := by
  have filled : blocks.isEmpty = false := by simpa using nonempty
  simp only [build, filled, Bool.false_eq_true, if_false, Logged.outcome_bind, Logged.outcome_pure,
    Outcome.ok_bind, Logged.outcome_ofExcept, linear, Except.mapError, Logged.outcome_leave,
    canonicalBlocks_outcome hasTable]
  rfl

def codeAt (blocks : List CodeBlock) (position : Nat) : CodeBlock :=
  blocks.getD position { address := 0 }

theorem getElem?_codeAt {blocks : List CodeBlock} {position : Nat}
    (below : position < blocks.length) : blocks[position]? = some (codeAt blocks position) := by
  rw [codeAt, List.getD_eq_getElem?_getD, List.getElem?_eq_getElem below, Option.getD_some]

theorem codeAt_mem {blocks : List CodeBlock} {position : Nat} (below : position < blocks.length) :
    codeAt blocks position ∈ blocks :=
  List.mem_of_getElem? (getElem?_codeAt below)

theorem exists_codeAt {blocks : List CodeBlock} {block : CodeBlock} (isBlock : block ∈ blocks) :
    ∃ position < blocks.length, codeAt blocks position = block := by
  obtain ⟨position, found⟩ := List.mem_iff_getElem?.mp isBlock
  have below := (List.getElem?_eq_some_iff.mp found).1
  rw [getElem?_codeAt below, Option.some.injEq] at found
  exact ⟨position, below, found⟩

theorem codeAt_address {blocks : List CodeBlock} {address : Int} {position : Nat}
    (found : position? blocks address = some position) :
    (codeAt blocks position).address = address := by
  have start := lastIndex?_getElem? found
  rw [List.getElem?_map, getElem?_codeAt (position?_lt found)] at start
  exact Option.some.inj start

theorem ordered_eq {blocks : List CodeBlock} {order : List Nat}
    (inside : ∀ position ∈ order, position < blocks.length) :
    (order.filterMap fun position => blocks[position]?) = order.map (codeAt blocks) := by
  rw [List.filterMap_congr fun position member => getElem?_codeAt (inside position member)]
  exact congrFun List.filterMap_eq_map order

theorem mem_canonicalEdges {blocks : List CodeBlock} {order : List Nat} {position : Nat}
    {block : CodeBlock} {edge : Edge} :
    edge ∈ canonicalEdges blocks order position block ↔
      ∃ exit ∈ block.exits, ∃ target, position? blocks exit.target = some target ∧
        edge = { source := position, target := order.idxOf target, kind := exit.kind
                 value := exit.value } := by
  simp only [canonicalEdges, Edge.sort, List.mem_mergeSort, List.mem_filterMap,
    Option.map_eq_some_iff]
  constructor
  · rintro ⟨exit, isExit, target, found, rfl⟩
    exact ⟨exit, isExit, target, found, rfl⟩
  · rintro ⟨exit, isExit, target, found, rfl⟩
    exact ⟨exit, isExit, target, found, rfl⟩

section Graph

variable {blocks : List CodeBlock} {order : List Nat}
  (inside : ∀ position ∈ order, position < blocks.length)
  (reached : ∀ position, position ∈ order ↔ Relation.ReflTransGen (Leads blocks) 0 position)
  (name : String) (family : Family) (labels : List (Int × String)) (base : Int)

include inside in
theorem graphOf_getElem? (place : Nat) :
    (graphOf name blocks family labels base order).blocks[place]? =
      order[place]?.map fun position =>
        canonicalBlock family blocks order place (codeAt blocks position) := by
  simp only [graphOf, ordered_eq inside, List.getElem?_map, List.getElem?_zipIdx, Nat.zero_add,
    Option.map_map]
  rfl

include inside in
theorem graphOf_size : (graphOf name blocks family labels base order).size = order.length := by
  simp [FlowGraph.size, graphOf, ordered_eq inside]

include inside in
theorem graphOf_listed : (graphOf name blocks family labels base order).display.addresses =
    order.map fun position => addresses (codeAt blocks position).instructions := by
  simp [graphOf, sideTable, ordered_eq inside, addresses, Function.comp_def]

include inside reached

theorem graphOf_wellFormed (nonempty : order ≠ []) :
    (graphOf name blocks family labels base order).WellFormed where
  nonempty := by
    rw [← List.length_pos_iff]
    have size := graphOf_size inside name family labels base
    rw [FlowGraph.size] at size
    rw [size]
    exact List.length_pos_iff.mpr nonempty
  labelled := by
    rw [graphOf_size inside]
    simp [graphOf, sideTable, ordered_eq inside]
  placed := by
    intro place block found
    rw [graphOf_getElem? inside] at found
    obtain ⟨position, isMember, rfl⟩ := Option.map_eq_some_iff.mp found
    refine ⟨rfl, ?_⟩
    intro edge isEdge
    obtain ⟨exit, isExit, target, isTarget, rfl⟩ := mem_canonicalEdges.mp isEdge
    have member : position ∈ order := List.mem_of_getElem? isMember
    have leads : Leads blocks position target := by
      refine ⟨codeAt blocks position, getElem?_codeAt (inside position member), exit, isExit, ?_⟩
      rw [exitPosition, isTarget, Option.getD_some]
    have targetMember : target ∈ order := by
      rw [reached]
      exact ((reached position).mp member).tail leads
    rw [graphOf_size inside]
    refine ⟨rfl, Int.natCast_nonneg _, ?_⟩
    exact Int.ofNat_lt.mpr (List.idxOf_lt_length_of_mem targetMember)

/-- Every block in the order can be reached from the entry of the graph. -/
theorem graphOf_reaches (closed : Closed blocks) (entry : order.head? = some 0) {position : Nat}
    (path : Relation.ReflTransGen (Leads blocks) 0 position) :
    Search.Reaches (graphOf name blocks family labels base order).successors 0
      (order.idxOf position) := by
  induction path with
  | refl =>
      obtain ⟨rest, rfl⟩ : ∃ rest, order = 0 :: rest := by
        cases order with
        | nil => simp at entry
        | cons first rest => exact ⟨rest, by simpa using entry⟩
      rw [List.idxOf_cons_self]
      exact .refl
  | @tail before after earlier leads ih =>
      refine ih.tail ?_
      have member : before ∈ order := (reached before).mpr earlier
      have below := List.idxOf_lt_length_of_mem member
      obtain ⟨block, found, exit, isExit, rfl⟩ := leads
      have isBlock : codeAt blocks before = block := by
        rw [getElem?_codeAt (inside before member)] at found
        exact Option.some.inj found
      have placed := graphOf_getElem? inside name family labels base (order.idxOf before)
      have isPosition : order[order.idxOf before]? = some before := by
        rw [List.getElem?_eq_getElem below, List.getElem_idxOf]
      rw [isPosition, Option.map_some, isBlock] at placed
      simp only [FlowGraph.successors, List.mem_eraseDups, List.mem_map, List.mem_filter,
        decide_eq_true_eq]
      refine ⟨{ source := order.idxOf before, target := order.idxOf (exitPosition blocks exit)
                kind := exit.kind, value := exit.value }, ⟨?_, rfl⟩, rfl⟩
      refine List.mem_flatMap.mpr ⟨_, List.mem_of_getElem? placed, ?_⟩
      refine mem_canonicalEdges.mpr ⟨exit, isExit, exitPosition blocks exit, ?_, rfl⟩
      exact closed.position? (List.mem_of_getElem? found) isExit

end Graph

/-- Blocks whose exits all lead to blocks have a graph: those that can be reached, each once, in an
order that passes the check. -/
theorem build_graphOf {family : Family} (hasTable : (Opcode.classes? family).isSome) (name : String)
    {blocks : List CodeBlock} (closed : Closed blocks) (nonempty : blocks ≠ [])
    (labels : List (Int × String)) (base : Int) :
    ∃ order, order.Nodup ∧ (∀ position ∈ order, position < blocks.length) ∧
      (∀ position, position ∈ order ↔ Relation.ReflTransGen (Leads blocks) 0 position) ∧
      (build name blocks family labels base).outcome =
        .ok (graphOf name blocks family labels base order) ∧
      (graphOf name blocks family labels base order).check = .ok () := by
  obtain ⟨order, linear, distinct, entry, inside, reached⟩ := linearize_spec closed nonempty
  have filled : order ≠ [] := by
    intro none'
    simp [none'] at entry
  have formed := graphOf_wellFormed inside reached name family labels base filled
  have checked : (graphOf name blocks family labels base order).check = .ok () := by
    apply FlowGraph.check_of_reaches formed
    intro place below
    rw [graphOf_size inside] at below
    have member : order.get ⟨place, below⟩ ∈ order := List.get_mem _ _
    have reaches := graphOf_reaches inside reached name family labels base closed entry
      ((reached _).mp member)
    rwa [List.get_eq_getElem, distinct.idxOf_getElem] at reaches
  refine ⟨order, distinct, inside, reached, ?_, checked⟩
  rw [build_outcome hasTable name nonempty labels base linear, checked]
  rfl

theorem build_ok {family : Family} (hasTable : (Opcode.classes? family).isSome) (name : String)
    {blocks : List CodeBlock} (closed : Closed blocks) (nonempty : blocks ≠ [])
    (labels : List (Int × String)) (base : Int) :
    ∃ graph, (build name blocks family labels base).outcome = .ok graph ∧ graph.check = .ok () := by
  obtain ⟨order, _, _, _, built, checked⟩ := build_graphOf hasTable name closed nonempty labels base
  exact ⟨_, built, checked⟩

theorem build_linear {family : Family} (hasTable : (Opcode.classes? family).isSome) (name : String)
    {blocks : List CodeBlock} (closed : Closed blocks) (nonempty : blocks ≠ [])
    (labels : List (Int × String)) (base : Int) {order : List Nat}
    (linear : linearize blocks = .ok order) :
    (build name blocks family labels base).outcome =
      .ok (graphOf name blocks family labels base order) := by
  obtain ⟨graph, built, _⟩ := build_ok hasTable name closed nonempty labels base
  have outcome := build_outcome hasTable name nonempty labels base linear
  rw [built] at outcome
  obtain ⟨_, _, made⟩ := Outcome.bind_eq_ok outcome.symm
  rw [built, Except.ok.inj made]

/-- A graph is handed out only after it has passed its check. -/
theorem build_check {name : String} {blocks : List CodeBlock} {family : Family}
    {labels : List (Int × String)} {base : Int} {graph : FlowGraph}
    (built : (build name blocks family labels base).outcome = .ok graph) :
    graph.check = .ok () := by
  simp only [build] at built
  split at built
  · simp at built
  · simp only [Logged.outcome_bind, Logged.outcome_ofExcept, Logged.outcome_leave,
      Outcome.ok_bind, Logged.outcome_pure] at built
    obtain ⟨order, _, built⟩ := Outcome.bind_eq_ok built
    obtain ⟨canonical, _, built⟩ := Outcome.bind_eq_ok built
    obtain ⟨_, checked, built⟩ := Outcome.bind_eq_ok built
    simp only [Except.ok.injEq] at built
    rw [built] at checked
    cases passed : graph.check with
    | error fault => simp [passed, Except.mapError] at checked
    | ok _ => rfl

end Code

namespace Function

theorem canonicalize_outcome {function : Function} {body : List Instruction} {name : String}
    (hasBody : function.body.outcome = .ok body) (hasName : function.name.outcome = .ok name) :
    function.canonicalize.outcome = (Code.build name (Code.split body) function.format.family
      function.labels function.address).outcome := by
  simp only [canonicalize, Logged.outcome_bind, hasBody, hasName, Outcome.ok_bind,
    Logged.outcome_leave]

theorem canonicalize_linear {function : Function} {body : List Instruction} {name : String}
    (hasBody : function.body.outcome = .ok body) (hasName : function.name.outcome = .ok name)
    (nonempty : body ≠ []) {order : List Nat} (linear : Code.linearize (Code.split body) = .ok order) :
    function.canonicalize.outcome = .ok (Code.graphOf name (Code.split body) function.format.family
      function.labels function.address order) := by
  rw [canonicalize_outcome hasBody hasName]
  exact Code.build_linear function.format.classes?_isSome name (Code.split_closed body)
    (Code.split_ne_nil nonempty) function.labels function.address linear

theorem canonicalize_check {function : Function} {graph : FlowGraph}
    (canonical : function.canonicalize.outcome = .ok graph) : graph.check = .ok () := by
  simp only [canonicalize, Logged.outcome_bind, Logged.outcome_leave, Outcome.ok_bind] at canonical
  obtain ⟨body, _, canonical⟩ := Outcome.bind_eq_ok canonical
  obtain ⟨name, _, canonical⟩ := Outcome.bind_eq_ok canonical
  exact Code.build_check canonical

theorem canonicalize_empty {function : Function} {name : String}
    (hasBody : function.body.outcome = .ok []) (hasName : function.name.outcome = .ok name) :
    function.canonicalize.outcome = .error (.graph (.noInstruction name)) := by
  rw [canonicalize_outcome hasBody hasName]
  rfl

end Function

end FlowAlign
