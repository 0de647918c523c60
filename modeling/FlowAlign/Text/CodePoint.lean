/-!
Code points of a text. A name may hold surrogates, which are code points but no characters. In a
text a surrogate is spelled by two characters, a mark and a private one, and the mark itself is
spelled twice, so that every sequence of code points has a text of its own.
-/

namespace FlowAlign.Text

def surrogateMark : Char := Char.ofNat 0x10F7FF

def isSurrogate (point : Nat) : Bool :=
  decide (0xD800 ≤ point) && decide (point < 0xE000)

/-- Distance between a surrogate and the private character that follows the mark. -/
def surrogateShift : Nat := 0x100000

def spellPoint (point : Nat) : List Char :=
  if isSurrogate point then [surrogateMark, Char.ofNat (point + surrogateShift)]
  else if point = surrogateMark.toNat then [surrogateMark, surrogateMark]
  else [Char.ofNat point]

def ofPoints (points : List Nat) : String :=
  String.ofList (points.flatMap spellPoint)

def markedPoint (second : Char) : Nat :=
  if second = surrogateMark then surrogateMark.toNat else second.toNat - surrogateShift

def pointsOf : List Char → List Nat
  | [] => []
  | [char] => [char.toNat]
  | first :: second :: rest =>
      if first = surrogateMark then markedPoint second :: pointsOf rest
      else first.toNat :: pointsOf (second :: rest)

def points (text : String) : List Nat :=
  let chars := text.toList
  if chars.contains surrogateMark then pointsOf chars else chars.map Char.toNat

def le (first second : String) : Bool :=
  !List.lex (points second) (points first) fun one other => decide (one < other)

def hasSurrogate (text : String) : Bool :=
  (points text).any isSurrogate

theorem pointsOf_cons (char : Char) (rest : List Char) (plain : char ≠ surrogateMark) :
    pointsOf (char :: rest) = char.toNat :: pointsOf rest := by
  cases rest with
  | nil => rfl
  | cons second rest => simp [pointsOf, plain]

theorem pointsOf_marked (second : Char) (rest : List Char) :
    pointsOf (surrogateMark :: second :: rest) = markedPoint second :: pointsOf rest := by
  simp [pointsOf]

/-- Without a mark every character is a code point. -/
theorem pointsOf_eq_map (chars : List Char) (plain : surrogateMark ∉ chars) :
    pointsOf chars = chars.map Char.toNat := by
  induction chars with
  | nil => rfl
  | cons char rest ih =>
      simp only [List.mem_cons, not_or] at plain
      rw [pointsOf_cons char rest (Ne.symm plain.1), ih plain.2, List.map_cons]

theorem points_eq_pointsOf (text : String) : points text = pointsOf text.toList := by
  unfold points
  by_cases marked : surrogateMark ∈ text.toList
  · simp [marked]
  · simp [marked, pointsOf_eq_map]

theorem isSurrogate_iff (point : Nat) :
    isSurrogate point = true ↔ 0xD800 ≤ point ∧ point < 0xE000 := by
  simp [isSurrogate]

/-- A valid code point that is no surrogate is that of its character. -/
theorem toNat_ofNat_point (point : Nat) (valid : point < 0x110000)
    (plain : ¬ isSurrogate point = true) : (Char.ofNat point).toNat = point := by
  have inRange : point.isValidChar := by
    rw [isSurrogate_iff] at plain
    unfold Nat.isValidChar
    omega
  rw [Char.ofNat, dif_pos inRange]
  rfl

theorem toNat_surrogateMark : surrogateMark.toNat = 0x10F7FF :=
  toNat_ofNat_point _ (by omega) (by rw [isSurrogate_iff]; omega)

/-- A surrogate has a private character of its own. -/
theorem toNat_ofNat_shifted (point : Nat) (surrogate : isSurrogate point = true) :
    (Char.ofNat (point + surrogateShift)).toNat = point + surrogateShift := by
  rw [isSurrogate_iff] at surrogate
  refine toNat_ofNat_point _ ?_ ?_
  · unfold surrogateShift
    omega
  · rw [isSurrogate_iff]
    unfold surrogateShift
    omega

theorem markedPoint_ofNat (point : Nat) (surrogate : isSurrogate point = true) :
    markedPoint (Char.ofNat (point + surrogateShift)) = point := by
  have shifted := toNat_ofNat_shifted point surrogate
  rw [isSurrogate_iff] at surrogate
  have differs : Char.ofNat (point + surrogateShift) ≠ surrogateMark := by
    intro same
    rw [same, toNat_surrogateMark] at shifted
    unfold surrogateShift at shifted
    omega
  simp [markedPoint, differs, shifted]

/-- The spelling of a code point is read back, whatever follows. -/
theorem pointsOf_spellPoint (point : Nat) (valid : point < 0x110000) (rest : List Char) :
    pointsOf (spellPoint point ++ rest) = point :: pointsOf rest := by
  unfold spellPoint
  by_cases surrogate : isSurrogate point = true
  · simp [surrogate, pointsOf_marked, markedPoint_ofNat]
  · by_cases mark : point = surrogateMark.toNat
    · subst mark
      simp [surrogate, pointsOf_marked, markedPoint]
    · have back := toNat_ofNat_point point valid surrogate
      have differs : Char.ofNat point ≠ surrogateMark := fun same => mark (by rw [← back, same])
      simp [surrogate, mark, pointsOf_cons _ _ differs, back]

/-- Every sequence of code points can be told from its text. -/
theorem points_ofPoints (sequence : List Nat) (valid : ∀ point ∈ sequence, point < 0x110000) :
    points (ofPoints sequence) = sequence := by
  have spelled : pointsOf (sequence.flatMap spellPoint) = sequence := by
    induction sequence with
    | nil => rfl
    | cons point rest ih =>
        rw [List.flatMap_cons, pointsOf_spellPoint point (valid point (by simp)),
          ih fun other member => valid other (by simp [member])]
  simpa [points_eq_pointsOf, ofPoints] using spelled

end FlowAlign.Text
