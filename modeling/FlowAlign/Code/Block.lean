import FlowAlign.Graph.Basic
import FlowAlign.Instruction

/-!
Basic blocks of an instruction stream. A block starts at the first instruction, at every target of a
terminator and after every terminator; its exits follow from the flow of its last instruction.
-/

namespace FlowAlign

structure Exit where
  target : Int
  kind : EdgeKind
  value : Option Int := none
  deriving DecidableEq

structure CodeBlock where
  address : Int
  instructions : List Instruction := []
  exits : List Exit := []
  deriving DecidableEq

namespace CodeBlock

def lastFlow? (block : CodeBlock) : Option Flow :=
  block.instructions.getLast?.map Instruction.flow

end CodeBlock

namespace Code

def addresses (body : List Instruction) : List Int :=
  body.map Instruction.address

def followers : List Instruction → List Int
  | [] => []
  | [_] => []
  | first :: second :: rest =>
      if first.flow.isTerminator then second.address :: followers (second :: rest)
      else followers (second :: rest)

def innerTargets (body : List Instruction) : List Int :=
  ((body.filter fun instruction => instruction.flow.isTerminator).flatMap Instruction.targets).filter
    (addresses body).contains

def leaders (body : List Instruction) : List Int :=
  (body.take 1).map Instruction.address ++ followers body ++ innerTargets body

/-- Cuts a body before every instruction at a leader. -/
def cut (leaders : List Int) : List Instruction → List (List Instruction)
  | [] => []
  | [last] => [[last]]
  | first :: second :: rest =>
      match cut leaders (second :: rest) with
      | [] => [[first]]
      | group :: groups =>
          if leaders.contains second.address then [first] :: group :: groups
          else (first :: group) :: groups

/-- The ways out that the flow of a last instruction names, `next` being the block after it. -/
def namedExits (last : Instruction) (next : Option Int) : List Exit :=
  let toward (kind : EdgeKind) (target : Option Int) : List Exit :=
    target.toList.map fun address => { target := address, kind := kind }
  match last.flow with
  | .condJump =>
      toward .branchTrue last.targets.head? ++
        toward .branchFalse (if 1 < last.targets.length then last.targets[1]? else next)
  | .jump => toward .unconditional last.targets.head?
  | .indirectJump => last.targets.map fun address => { target := address, kind := .indirect }
  | .switch =>
      (last.targets.zip last.caseValues).map fun (address, value) =>
        { target := address, kind := .switchCase, value := value }
  | .callWithUnwind =>
      toward .unconditional (if last.targets.isEmpty then next else last.targets.head?) ++
        (last.targets.drop 1).map fun address => { target := address, kind := .indirect }
  | .ret => []
  | .trap => []
  | .sequential => toward .fallthrough next
  | .call => toward .fallthrough next

/-- The ways out that stay inside the body, each once. A target outside is a tail call. -/
def exits (inside : List Int) (last : Instruction) (next : Option Int) : List Exit :=
  ((namedExits last next).filter fun exit => inside.contains exit.target).eraseDups

def blocksOf (inside : List Int) : List (List Instruction) → List CodeBlock
  | [] => []
  | group :: rest =>
      let next := rest.head?.bind fun following => following.head?.map Instruction.address
      match group.head?, group.getLast? with
      | some first, some last =>
          { address := first.address, instructions := group, exits := exits inside last next } ::
            blocksOf inside rest
      | _, _ => blocksOf inside rest

def isUnresolved (block : CodeBlock) : Bool :=
  block.lastFlow? = some .indirectJump && block.exits.isEmpty

/-- Addresses of the blocks that are neither the entry nor the target of an exit. -/
def orphans (blocks : List CodeBlock) : List Int :=
  let reached := (blocks.take 1).map CodeBlock.address ++
    blocks.flatMap fun block => block.exits.map Exit.target
  (blocks.map CodeBlock.address).filter fun address => !reached.contains address

/-- Lets every unresolved indirect jump lead to all the orphans. -/
def connectOrphans (blocks : List CodeBlock) : List CodeBlock :=
  let targets := orphans blocks
  if targets.isEmpty then blocks
  else blocks.map fun block =>
    if isUnresolved block then
      { block with exits := targets.map fun address => { target := address, kind := .indirect } }
    else block

def looseBlocks (body : List Instruction) : List CodeBlock :=
  blocksOf (addresses body) (cut (leaders body) body)

def split (body : List Instruction) : List CodeBlock :=
  connectOrphans (looseBlocks body)

def leavesBody (inside : List Int) (instruction : Instruction) : Bool :=
  (instruction.flow = .jump || instruction.flow = .condJump) &&
    instruction.targets.any fun target => !inside.contains target

def splitNotes (body : List Instruction) : List Note :=
  let blocks := looseBlocks body
  let unresolved := (blocks.filter isUnresolved).length
  let targets := (orphans blocks).length
  let outside := (body.filter (leavesBody (addresses body))).length
  (if unresolved = 0 ∨ targets = 0 then []
    else [.debug s!"{unresolved} unresolved indirect jump(s), linked to {targets} block(s)"]) ++
  (if outside = 0 then [] else [.debug s!"{outside} jump(s) leave the function (tail calls)"])

end Code

end FlowAlign
