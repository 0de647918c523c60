import FlowAlign.Proofs.Code.Targets
import FlowAlign.Proofs.Distinct
import FlowAlign.Proofs.Related
import FlowAlign.Text.Case

/-!
Two bodies that differ in their addresses and names only. One is the renaming of the other when a map
of addresses leads from instruction to instruction and from every target inside to its counterpart.
Cutting renamed bodies into blocks gives renamed blocks.
-/

namespace FlowAlign

/-- Operands of one type, with the same literal where the literal is compared. -/
structure Operand.Alike (first second : Operand) : Prop where
  type_eq : second.type = first.type
  value_eq : first.type = .immediate ∨ first.type = .floatPoint ∨ first.type = .symbol →
    second.value.map Literal.key = first.value.map Literal.key

/-- A target inside is renamed, one outside only has to stay outside. -/
structure TargetRenamed (rename : Int → Int) (inside inside' : List Int) (first second : Int) :
    Prop where
  inner : first ∈ inside → second = rename first
  outer : first ∉ inside → second ∉ inside'

theorem TargetRenamed.contains_eq {rename : Int → Int} {inside inside' : List Int}
    (insideMap : inside' = inside.map rename) {first second : Int}
    (renamed : TargetRenamed rename inside inside' first second) :
    inside'.contains second = inside.contains first ∧
      (inside.contains first = true → second = rename first) := by
  by_cases member : first ∈ inside
  · obtain rfl : second = rename first := renamed.inner member
    have member' : rename first ∈ inside' := by
      rw [insideMap]
      exact List.mem_map_of_mem member
    simp [member, member']
  · have outside : second ∉ inside' := renamed.outer member
    simp [member, outside]

structure Instruction.Renamed (rename : Int → Int) (inside inside' : List Int)
    (first second : Instruction) : Prop where
  address_eq : second.address = rename first.address
  flow_eq : second.flow = first.flow
  undecoded_eq : second.undecoded = first.undecoded
  mnemonic_eq : Text.lower second.mnemonic = Text.lower first.mnemonic
  operands : List.Forall₂ Operand.Alike first.operands second.operands
  text_eq : first.undecoded = true → second.text = first.text
  targets : List.Forall₂ (TargetRenamed rename inside inside') first.targets second.targets
  caseValues_eq : second.caseValues = first.caseValues

namespace Code

/-- The second body is the first one under other addresses and names. -/
structure Renamed (rename : Int → Int) (body body' : List Instruction) : Prop where
  apart : ∀ first ∈ addresses body, ∀ second ∈ addresses body,
    rename first = rename second → first = second
  instructions : List.Forall₂
    (Instruction.Renamed rename (addresses body) (addresses body')) body body'

variable {rename : Int → Int} {inside inside' : List Int}

section Body

variable {body body' : List Instruction}

theorem addresses_map
    (related : List.Forall₂ (Instruction.Renamed rename inside inside') body body') :
    addresses body' = (addresses body).map rename := by
  rw [addresses, addresses, List.map_map]
  exact map_related (fun _ _ pair => pair.address_eq) related

theorem followers_map
    (related : List.Forall₂ (Instruction.Renamed rename inside inside') body body') :
    followers body' = (followers body).map rename := by
  induction related with
  | nil => rfl
  | cons pair rest ih =>
      cases rest with
      | nil => rfl
      | cons next rest =>
          simp only [followers, pair.flow_eq, next.address_eq, ih]
          split
          · rfl
          · rfl

theorem innerTargets_map (insideMap : inside' = inside.map rename)
    (related : List.Forall₂ (Instruction.Renamed rename inside inside') body body') :
    ((body'.filter fun instruction => instruction.flow.isTerminator).flatMap
      Instruction.targets).filter inside'.contains =
      (((body.filter fun instruction => instruction.flow.isTerminator).flatMap
        Instruction.targets).filter inside.contains).map rename := by
  induction related with
  | nil => rfl
  | cons pair _ ih =>
      simp only [List.filter_cons, pair.flow_eq]
      split
      · simp only [List.flatMap_cons, List.filter_append, List.map_append, ih,
          filter_related (fun _ _ target => target.contains_eq insideMap) pair.targets]
      · exact ih

theorem leaders_map (renamed : Renamed rename body body') :
    leaders body' = (leaders body).map rename := by
  have insideMap := addresses_map renamed.instructions
  have first : (body'.take 1).map Instruction.address =
      ((body.take 1).map Instruction.address).map rename := by
    have mapped := congrArg (List.take 1) insideMap
    simpa only [addresses, List.map_take] using mapped
  simp only [leaders, innerTargets, List.map_append, first, followers_map renamed.instructions,
    innerTargets_map insideMap renamed.instructions]

theorem cut_renamed {starts : List Int} (below : starts ⊆ inside)
    (apart : Separates rename inside)
    (related : List.Forall₂ (Instruction.Renamed rename inside inside') body body')
    (members : addresses body ⊆ inside) :
    List.Forall₂ (List.Forall₂ (Instruction.Renamed rename inside inside')) (cut starts body)
      (cut (starts.map rename) body') := by
  induction related with
  | nil => exact .nil
  | @cons first first' rest rest' pair related ih =>
      cases related with
      | nil => exact .cons (.cons pair .nil) .nil
      | @cons second second' rest rest' next related =>
          have fewer : addresses (second :: rest) ⊆ inside :=
            fun address member => members (List.mem_cons_of_mem _ member)
          have starting : (starts.map rename).contains second'.address =
              starts.contains second.address := by
            rw [next.address_eq]
            apply contains_map
            apply apart.of_subset
            intro address member
            rcases List.mem_cons.mp member with rfl | member
            · exact fewer (by simp [addresses])
            · exact below member
          have groups := ih fewer
          simp only [cut, starting]
          revert groups
          cases cut starts (second :: rest) with
          | nil =>
              intro groups
              rw [List.forall₂_nil_left_iff.mp groups]
              exact .cons (.cons pair .nil) .nil
          | cons group groups =>
              intro related'
              obtain ⟨group', groups', sameGroup, sameGroups, found⟩ :=
                List.forall₂_cons_left_iff.mp related'
              rw [found]
              dsimp only
              split
              · exact .cons (.cons pair .nil) (.cons sameGroup sameGroups)
              · exact .cons (.cons pair sameGroup) sameGroups

end Body

section Exits

variable {last last' : Instruction} {next next' : Option Int}

def moved (rename : Int → Int) (exit : Exit) : Exit :=
  { exit with target := rename exit.target }

structure ExitRenamed (rename : Int → Int) (inside inside' : List Int) (first second : Exit) :
    Prop where
  target : TargetRenamed rename inside inside' first.target second.target
  kind_eq : second.kind = first.kind
  value_eq : second.value = first.value

theorem toward_renamed (kind : EdgeKind) {target target' : Option Int}
    (related : Option.Rel (TargetRenamed rename inside inside') target target') :
    List.Forall₂ (ExitRenamed rename inside inside')
      (target.toList.map fun address => { target := address, kind := kind })
      (target'.toList.map fun address => { target := address, kind := kind }) := by
  cases related with
  | none => exact .nil
  | some pair => exact .cons ⟨pair, rfl, rfl⟩ .nil

theorem targets_renamed (kind : EdgeKind) {targets targets' : List Int}
    (related : List.Forall₂ (TargetRenamed rename inside inside') targets targets') :
    List.Forall₂ (ExitRenamed rename inside inside')
      (targets.map fun address => { target := address, kind := kind })
      (targets'.map fun address => { target := address, kind := kind }) := by
  simp only [List.forall₂_map_left_iff, List.forall₂_map_right_iff]
  exact related.imp fun _ _ pair => ⟨pair, rfl, rfl⟩

theorem cases_renamed {targets targets' : List Int}
    (related : List.Forall₂ (TargetRenamed rename inside inside') targets targets') :
    ∀ values : List (Option Int), List.Forall₂ (ExitRenamed rename inside inside')
      ((targets.zip values).map fun (address, value) =>
        { target := address, kind := .switchCase, value := value })
      ((targets'.zip values).map fun (address, value) =>
        { target := address, kind := .switchCase, value := value }) := by
  induction related with
  | nil =>
      intro values
      exact .nil
  | cons pair _ ih =>
      intro values
      cases values with
      | nil => exact .nil
      | cons value values => exact .cons ⟨pair, rfl, rfl⟩ (ih values)

/-- Renamed instructions name renamed ways out. -/
theorem namedExits_renamed (pair : Instruction.Renamed rename inside inside' last last')
    (after : Option.Rel (TargetRenamed rename inside inside') next next') :
    List.Forall₂ (ExitRenamed rename inside inside') (namedExits last next)
      (namedExits last' next') := by
  have lengths := pair.targets.length_eq
  have head := getElem?_related pair.targets 0
  have second := getElem?_related pair.targets 1
  rw [← List.head?_eq_getElem?, ← List.head?_eq_getElem?] at head
  simp only [namedExits, pair.flow_eq, pair.caseValues_eq]
  cases last.flow with
  | sequential => exact toward_renamed _ after
  | call => exact toward_renamed _ after
  | ret => exact .nil
  | trap => exact .nil
  | jump => exact toward_renamed _ head
  | indirectJump => exact targets_renamed _ pair.targets
  | switch => exact cases_renamed pair.targets _
  | condJump =>
      refine List.rel_append (toward_renamed _ head) (toward_renamed _ ?_)
      rw [lengths]
      split
      · exact second
      · exact after
  | callWithUnwind =>
      refine List.rel_append (toward_renamed _ ?_)
        (targets_renamed _ (List.forall₂_drop 1 pair.targets))
      have empty : last'.targets.isEmpty = last.targets.isEmpty := by
        rw [Bool.eq_iff_iff, List.isEmpty_iff_length_eq_zero, List.isEmpty_iff_length_eq_zero, lengths]
      rw [empty]
      split
      · exact after
      · exact head

theorem exits_map (insideMap : inside' = inside.map rename) (apart : Separates rename inside)
    (pair : Instruction.Renamed rename inside inside' last last')
    (after : Option.Rel (TargetRenamed rename inside inside') next next') :
    exits inside' last' next' = (exits inside last next).map (moved rename) := by
  have kept : (namedExits last' next').filter (fun exit => inside'.contains exit.target) =
      ((namedExits last next).filter fun exit => inside.contains exit.target).map
        (moved rename) := by
    refine filter_related ?_ (namedExits_renamed pair after)
    intro first second renamed
    obtain ⟨contained, changed⟩ := renamed.target.contains_eq insideMap
    refine ⟨contained, ?_⟩
    intro member
    cases second
    simp only [moved, Exit.mk.injEq]
    exact ⟨changed member, renamed.kind_eq, renamed.value_eq⟩
  simp only [exits, kept]
  apply eraseDups_map
  intro first firstMember second secondMember same
  have firstInside := (List.mem_filter.mp firstMember).2
  have secondInside := (List.mem_filter.mp secondMember).2
  simp only [List.contains_iff_mem] at firstInside secondInside
  simp only [moved, Exit.mk.injEq] at same
  have targets := apart _ firstInside _ secondInside same.1
  cases first
  cases second
  simp_all

end Exits

end Code

end FlowAlign
