import FlowAlign.Files
import FlowAlign.Proofs.Outcome

/-!
Writing to files. A file that was opened can be written, and then it is as if it had been written at
once.
-/

namespace FlowAlign.Files

/-- Files with one more, or one other, at a place. -/
def enter (files : Files) (place : List String) (content : List UInt8) : Files :=
  { entries := (place, .file content) :: files.entries.filter fun (other, _) => other ≠ place }

theorem lookup_filter_ne {β : Type} {place other : List String} (apart : other ≠ place)
    (entries : List (List String × β)) :
    (entries.filter fun (found, _) => found ≠ place).lookup other = entries.lookup other := by
  induction entries with
  | nil => rfl
  | cons entry rest ih =>
      obtain ⟨found, node⟩ := entry
      by_cases same : found = place
      · subst same
        rw [List.filter_cons_of_neg (by simp), ih, List.lookup_cons,
          beq_eq_false_iff_ne.mpr apart]
      · rw [List.filter_cons_of_pos (by simpa using same), List.lookup_cons, List.lookup_cons, ih]

/-- Directories stay when a file is entered at another place. -/
theorem node?_enter {files : Files} {place other : List String} {content : List UInt8}
    (apart : other ≠ place) (isDirectory : files.node? other = some .directory) :
    (files.enter place content).node? other = some .directory := by
  rw [node?] at isDirectory ⊢
  split
  · rfl
  · rename_i below
    rw [if_neg below] at isDirectory
    have same : ((files.enter place content).entries ++ system).lookup other =
        (files.entries ++ system).lookup other := by
      rw [enter, List.cons_append, List.lookup_cons, beq_eq_false_iff_ne.mpr apart,
        List.lookup_append, List.lookup_append, lookup_filter_ne apart]
    rw [same]
    cases found : (files.entries ++ system).lookup other with
    | some node => simpa [found] using isDirectory
    | none =>
        simp only [found] at isDirectory
        have above : (files.entries.any fun (inside, _) => other.isPrefixOf inside) = true := by
          by_contra absent
          rw [if_neg absent] at isDirectory
          cases isDirectory
        obtain ⟨entry, isEntry, isPrefix⟩ := List.any_eq_true.mp above
        have still : ((files.enter place content).entries.any fun (inside, _) =>
            other.isPrefixOf inside) = true := by
          rw [enter, List.any_cons, Bool.or_eq_true, List.any_eq_true]
          by_cases here : entry.1 = place
          · exact Or.inl (here ▸ isPrefix)
          · exact Or.inr ⟨entry, List.mem_filter.mpr ⟨isEntry, by simpa using here⟩, isPrefix⟩
        simp only [still, if_true]

theorem node?_enter_self {files : Files} {place : List String} {content : List UInt8}
    (free : files.node? place ≠ some .directory) :
    (files.enter place content).node? place = some (.file content) := by
  have below : ¬ (isAbove place || isRoot place) = true := by
    intro above
    exact free (by rw [node?, if_pos above])
  rw [node?, if_neg below, enter, List.cons_append, List.lookup_cons_self]

/-- A walk leads to the same place where all directories are still there. -/
theorem walk_kept {files others : Files}
    (kept : ∀ place, files.node? place = some .directory → others.node? place = some .directory) :
    ∀ {parts : List String} {start place : List String},
      files.walk start parts = .ok place → others.walk start parts = .ok place := by
  intro parts
  induction parts with
  | nil => exact fun walked => walked
  | cons part rest ih =>
      intro start place walked
      cases node : files.node? start with
      | none => simp [walk, node] at walked
      | some found =>
          cases found with
          | file content => simp [walk, node] at walked
          | sink => simp [walk, node] at walked
          | directory =>
              by_cases long : Path.isTooLong part = true
              · simp [walk, node, long] at walked
              · simp only [walk, node, kept start node, long, Bool.false_eq_true, if_false]
                  at walked ⊢
                exact ih walked

/-- What can be written at a path: anything into a sink, and a file at a place that is not a
directory. -/
theorem write_cases {files opened : Files} {path : Path} {content : List UInt8}
    (written : files.write path content = .ok opened) :
    ∃ place, files.place path = .ok place ∧
      ((files.node? place = some .sink ∧ opened = files) ∨
        (files.node? place ≠ some .sink ∧ files.node? place ≠ some .directory ∧
          opened = files.enter place content)) := by
  rw [write] at written
  obtain ⟨place, placed, written⟩ := Outcome.bind_eq_ok written
  refine ⟨place, placed, ?_⟩
  cases node : files.node? place with
  | none =>
      simp only [node] at written
      exact Or.inr ⟨by simp, by simp, (Except.ok.inj written).symm⟩
  | some found =>
      simp only [node] at written
      cases found with
      | file old => exact Or.inr ⟨by simp, by simp, (Except.ok.inj written).symm⟩
      | directory => cases written
      | sink => exact Or.inl ⟨rfl, (Except.ok.inj written).symm⟩

theorem write_of_place {files : Files} {path : Path} {place : List String}
    (placed : files.place path = .ok place) (notSink : files.node? place ≠ some .sink)
    (notDirectory : files.node? place ≠ some .directory) (content : List UInt8) :
    files.write path content = .ok (files.enter place content) := by
  rw [write, placed, Outcome.ok_bind]
  cases node : files.node? place with
  | none => rfl
  | some found =>
      cases found with
      | file old => rfl
      | directory => exact absurd node notDirectory
      | sink => exact absurd node notSink

theorem enter_enter (files : Files) (place : List String) (first second : List UInt8) :
    (files.enter place first).enter place second = files.enter place second := by
  simp [enter, List.filter_filter]

/-- Of two writes to one path the last one counts, and it succeeds when the first one does. -/
theorem write_write {files opened : Files} {path : Path} {first : List UInt8}
    (written : files.write path first = .ok opened) (second : List UInt8) :
    ∃ saved, opened.write path second = .ok saved ∧ files.write path second = .ok saved := by
  obtain ⟨place, placed, ⟨isSink, rfl⟩ | ⟨notSink, notDirectory, rfl⟩⟩ := write_cases written
  · refine ⟨opened, ?_⟩
    simp only [and_self, write, placed, Outcome.ok_bind, isSink]
    rfl
  · have kept : ∀ other, files.node? other = some .directory →
        (files.enter place first).node? other = some .directory := by
      intro other isDirectory
      refine node?_enter ?_ isDirectory
      rintro rfl
      exact notDirectory isDirectory
    have found : (files.enter place first).place path = .ok place := by
      obtain ⟨checked, isChecked, walked⟩ := Outcome.bind_eq_ok placed
      rw [Files.place, isChecked, Outcome.ok_bind]
      exact walk_kept kept walked
    have node : (files.enter place first).node? place = some (.file first) :=
      node?_enter_self notDirectory
    refine ⟨files.enter place second, ?_, write_of_place placed notSink notDirectory second⟩
    rw [write_of_place found (by simp [node]) (by simp [node]), enter_enter]

end FlowAlign.Files
