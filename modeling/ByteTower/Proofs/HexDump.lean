import ByteTower.CommandLine.Run
import ByteTower.Proofs.Bytes
import Mathlib.Data.List.Forall2

namespace ByteTower

namespace Hex

def Lower (c : Char) : Prop := ('0' ≤ c ∧ c ≤ '9') ∨ ('a' ≤ c ∧ c ≤ 'f')

instance : DecidablePred Lower := fun _ => inferInstanceAs (Decidable (_ ∨ _))

/-- The number that digits stand for, the first of which counts most. -/
def value (text : List Char) : Nat := text.foldl (fun n c => 16 * n + (digit? c).getD 0) 0

/-- `text` is `n` in lower case, in `width` digits, or in more if they are needed. -/
structure Numeral (width n : Nat) (text : List Char) : Prop where
  lower : ∀ c ∈ text, Lower c
  value_eq : value text = n
  width_le : width ≤ text.length
  tight : width < text.length → text.head? ≠ some '0'

def octet? : List Char → Option UInt8
  | [high, low] => do
    let h ← digit? high
    let l ← digit? low
    return UInt8.ofNat (16 * h + l)
  | _ => none

theorem digit?_digitChar : ∀ d < 16, digit? (Nat.digitChar d) = some d := by decide

theorem lower_digitChar : ∀ d < 16, Lower (Nat.digitChar d) := by decide

theorem not_lower_blank : ¬Lower ' ' := by decide

theorem not_lower_newline : ¬Lower '\n' := by decide

theorem lower_pair (v : UInt8) : ∀ c ∈ pair v, Lower c := by
  have hv := v.toNat_lt
  intro c hc
  simp only [pair, List.mem_cons, List.not_mem_nil, or_false] at hc
  obtain rfl | rfl := hc
  · exact lower_digitChar _ (by omega)
  · exact lower_digitChar _ (by omega)

theorem octet?_pair (v : UInt8) : octet? (pair v) = some v := by
  have hv := v.toNat_lt
  have hjoin : 16 * (v.toNat / 16) + v.toNat % 16 = v.toNat := Nat.div_add_mod ..
  simp only [octet?, pair, digit?_digitChar (v.toNat / 16) (by omega),
    digit?_digitChar (v.toNat % 16) (by omega), Option.bind_eq_bind, Option.bind_some, hjoin,
    UInt8.ofNat_toNat]
  rfl

theorem value_concat (text : List Char) (c : Char) :
    value (text ++ [c]) = 16 * value text + (digit? c).getD 0 := by
  rw [value, List.foldl_append]
  rfl

theorem value_toDigits (n : Nat) : value (Nat.toDigits 16 n) = n := by
  induction n using Nat.strongRecOn with
  | ind n ih =>
    by_cases h : n < 16
    · rw [Nat.toDigits_of_lt_base h, ← List.nil_append [_], value_concat, digit?_digitChar n h]
      exact Nat.zero_add n
    · rw [Nat.toDigits_of_base_le (by decide) (by omega), value_concat, ih _ (by omega),
        digit?_digitChar _ (Nat.mod_lt n (by decide))]
      exact Nat.div_add_mod n 16

theorem lower_toDigits (n : Nat) : ∀ c ∈ Nat.toDigits 16 n, Lower c := by
  induction n using Nat.strongRecOn with
  | ind n ih =>
    by_cases h : n < 16
    · rw [Nat.toDigits_of_lt_base h]
      simpa using lower_digitChar n h
    · rw [Nat.toDigits_of_base_le (by decide) (by omega)]
      intro c hc
      obtain hc | hc := List.mem_append.1 hc
      · exact ih _ (by omega) c hc
      · rw [List.mem_singleton.1 hc]
        exact lower_digitChar _ (Nat.mod_lt n (by decide))

theorem head?_toDigits {n : Nat} (hn : 0 < n) : (Nat.toDigits 16 n).head? ≠ some '0' := by
  induction n using Nat.strongRecOn with
  | ind n ih =>
    by_cases h : n < 16
    · rw [Nat.toDigits_of_lt_base h]
      simpa using Nat.ne_of_gt hn
    · rw [Nat.toDigits_of_base_le (by decide) (by omega),
        List.head?_append_of_ne_nil _ Nat.toDigits_ne_nil]
      exact ih _ (by omega) (by omega)

theorem value_zeros_append (k : Nat) (text : List Char) :
    value (List.replicate k '0' ++ text) = value text := by
  induction k with
  | zero => rfl
  | succ k ih => exact ih

theorem numeral_padded {width : Nat} (hw : 0 < width) (n : Nat) :
    Numeral width n (padded width n) where
  lower c hc := by
    obtain hc | hc := List.mem_append.1 hc
    · rw [List.eq_of_mem_replicate hc]
      decide
    · exact lower_toDigits n c hc
  value_eq := (value_zeros_append _ _).trans (value_toDigits n)
  width_le := by
    rw [padded, List.length_leftpad]
    exact Nat.le_max_left ..
  tight h := by
    -- digits that are more than asked for are not filled up, and a zero alone is not more
    rw [padded, List.length_leftpad] at h
    have hlen : width - (Nat.toDigits 16 n).length = 0 := by omega
    rw [padded, List.leftpad, hlen]
    apply head?_toDigits
    apply Nat.pos_of_ne_zero
    rintro rfl
    rw [Nat.toDigits_zero, List.length_singleton] at h
    omega

end Hex

namespace Dump

def groups (field : List Char) : List (List Char) :=
  (field.splitOn ' ').filter fun group => !group.isEmpty

/-- The hexadecimal part of a line, behind the offset and two blanks. -/
def hexPart (line : List Char) : List Char := ((line.dropWhile (· ≠ ' ')).drop 2).take 47

def readLine? (line : List Char) : Option (List UInt8) := (groups (hexPart line)).mapM Hex.octet?

/-- The bytes that a dump tells, line by line. Each line ends in a newline. How the text is made plays no
part: a line is taken apart at its first blank and a field at its blanks, and what is behind the field
may look like anything. -/
def undump? (text : List Char) : Option Bytes := do
  let rows ← (text.splitOn '\n').dropLast.mapM readLine?
  return Bytes.ofOctets rows.flatten

def text (b : Bytes) : List Char := (lines b).flatMap fun line => line.toList ++ ['\n']

/-- A byte is shown as itself if it is printable, and else as a dot. -/
def Shown (v : UInt8) (c : Char) : Prop :=
  if 0x20 ≤ v.toNat ∧ v.toNat ≤ 0x7e then c.toNat = v.toNat else c = '.'

/-- The line shows the bytes of a row that starts at `start`: where it starts, its bytes in
hexadecimal, and its bytes as text. -/
def Tells (start : Nat) (row : List UInt8) (line : List Char) : Prop :=
  ∃ offset field shown : List Char,
    line = offset ++ [' ', ' '] ++ field ++ [' ', ' '] ++ shown ∧
      Hex.Numeral 8 start offset ∧
      field.length = 47 ∧ (∀ c ∈ field, c = ' ' ∨ Hex.Lower c) ∧
      (groups field).mapM Hex.octet? = some row ∧
      List.Forall₂ Shown row shown

theorem groups_append_blank (before behind : List Char) :
    groups (before ++ ' ' :: behind) = groups before ++ groups behind := by
  rw [groups, List.splitOn_append_cons_self, List.filter_append]
  rfl

theorem groups_append_blanks (field : List Char) (n : Nat) :
    groups (field ++ List.replicate n ' ') = groups field := by
  induction n with
  | zero => rw [List.replicate_zero, List.append_nil]
  | succ n ih =>
    rw [List.replicate_succ', ← List.append_assoc, groups_append_blank, ih]
    exact List.append_nil _

theorem groups_pair (v : UInt8) : groups (Hex.pair v) = [Hex.pair v] := by
  have hblank : ' ' ∉ Hex.pair v := fun h => Hex.not_lower_blank (Hex.lower_pair v _ h)
  rw [groups, List.splitOn_eq_singleton hblank]
  rfl

theorem pairs_cons_cons (v w : UInt8) (row : List UInt8) :
    [' '].intercalate ((v :: w :: row).map Hex.pair) =
      Hex.pair v ++ ' ' :: [' '].intercalate ((w :: row).map Hex.pair) := by
  rw [List.map_cons, List.map_cons, List.intercalate_cons_cons, List.append_assoc]
  rfl

theorem groups_pairs (row : List UInt8) :
    groups ([' '].intercalate (row.map Hex.pair)) = row.map Hex.pair := by
  induction row with
  | nil => rfl
  | cons v row ih =>
    cases row with
    | nil => exact groups_pair v
    | cons w row =>
      rw [pairs_cons_cons, groups_append_blank, groups_pair, ih]
      rfl

theorem length_pairs (row : List UInt8) :
    ([' '].intercalate (row.map Hex.pair)).length = 3 * row.length - 1 := by
  induction row with
  | nil => rfl
  | cons v row ih =>
    cases row with
    | nil => rfl
    | cons w row =>
      have hv : (Hex.pair v).length = 2 := rfl
      rw [pairs_cons_cons, List.length_append, List.length_cons, ih, hv]
      simp only [List.length_cons]
      omega

theorem mem_pairs {row : List UInt8} {c : Char} (h : c ∈ [' '].intercalate (row.map Hex.pair)) :
    c = ' ' ∨ Hex.Lower c := by
  induction row with
  | nil => nomatch h
  | cons v row ih =>
    cases row with
    | nil => exact .inr (Hex.lower_pair v c (by simpa using h))
    | cons w row =>
      rw [pairs_cons_cons, List.mem_append, List.mem_cons] at h
      obtain hv | hblank | hrow := h
      · exact .inr (Hex.lower_pair v c hv)
      · exact .inl hblank
      · exact ih hrow

theorem shown_glyph (v : UInt8) : Shown v (glyph v) := by
  have hrange : (0x20 ≤ v ∧ v ≤ 0x7e) ↔ 0x20 ≤ v.toNat ∧ v.toNat ≤ 0x7e := Iff.rfl
  rw [Shown, glyph]
  split
  case isTrue h =>
    have hvalid : v.toNat.isValidChar := .inl (by omega)
    rw [if_pos (hrange.2 h), Char.ofNat, dif_pos hvalid]
    rfl
  case isFalse h => exact if_neg (mt hrange.1 h)

/-- The line of a row tells the row. A row of at most sixteen bytes has a field of just the width. -/
theorem tells_line (k : Nat) {row : List UInt8} (h : row.length ≤ 16) :
    Tells (16 * k) row (line k row) := by
  have hlen := length_pairs row
  refine ⟨_, field row, row.map glyph, rfl, Hex.numeral_padded (by decide) _, ?_, ?_, ?_, ?_⟩
  · rw [field, List.length_rightpad, hlen, fieldWidth, rowSize]
    omega
  · intro c hc
    obtain hc | hc := List.mem_append.1 hc
    · exact mem_pairs hc
    · exact .inl (List.eq_of_mem_replicate hc)
  · have hgroups : groups (field row) = row.map Hex.pair :=
      (groups_append_blanks _ _).trans (groups_pairs row)
    rw [hgroups, List.mapM_map]
    simp only [Function.comp_def, Hex.octet?_pair]
    exact List.mapM_pure.trans (congrArg some (List.map_id' row))
  · exact List.forall₂_map_right_iff.2 (List.forall₂_same.2 fun v _ => shown_glyph v)

theorem Shown.ne_newline {v : UInt8} {c : Char} (h : Shown v c) : c ≠ '\n' := by
  rintro rfl
  unfold Shown at h
  split at h
  case isTrue hv =>
    have hten : ('\n').toNat = 10 := rfl
    omega
  case isFalse => nomatch h

section Tells

variable {start : Nat} {row : List UInt8} {text : List Char}

/-- Behind the offset, in which there is no blank, the field is where it is looked for, whatever is
behind it. -/
theorem Tells.readLine? (h : Tells start row text) : readLine? text = some row := by
  obtain ⟨offset, field, shown, rfl, hoffset, hlen, -, hrow, -⟩ := h
  have hnoblank : ∀ c ∈ offset, decide (c ≠ ' ') = true := by
    intro c hc
    apply decide_eq_true
    rintro rfl
    exact Hex.not_lower_blank (hoffset.lower _ hc)
  have hpart : hexPart (offset ++ [' ', ' '] ++ field ++ [' ', ' '] ++ shown) = field := by
    simp only [hexPart, List.append_assoc]
    rw [List.dropWhile_append_of_pos hnoblank]
    exact List.take_left' hlen
  rw [Dump.readLine?, hpart]
  exact hrow

theorem Tells.newline_not_mem (h : Tells start row text) : '\n' ∉ text := by
  obtain ⟨offset, field, shown, rfl, hoffset, -, hfield, -, hshown⟩ := h
  have hnoffset : '\n' ∉ offset := fun hc => Hex.not_lower_newline (hoffset.lower _ hc)
  have hnfield : '\n' ∉ field := fun hc =>
    (hfield _ hc).elim (by decide) Hex.not_lower_newline
  have hnshown : '\n' ∉ shown := by
    induction hshown with
    | nil => exact List.not_mem_nil
    | cons hv _ ih => exact List.not_mem_cons_of_ne_of_not_mem hv.ne_newline.symm ih
  simp [hnoffset, hnfield, hnshown]

end Tells

def texts (b : Bytes) : List (List Char) :=
  (List.range ((b.size + 15) / 16)).map fun k => line k (b.slice (16 * k) 16).octets

theorem lines_eq (b : Bytes) : lines b = (texts b).map String.ofList := by
  apply List.ext_getElem?
  intro k
  simp only [lines, rows, rowSize, texts, List.getElem?_mapIdx, List.getElem?_map]
  by_cases hk : k < (b.size + 15) / 16
  · rw [List.getElem?_range hk]
    rfl
  · rw [List.getElem?_eq_none (by simpa using Nat.le_of_not_lt hk)]
    rfl

theorem tells_row (b : Bytes) (k : Nat) :
    Tells (16 * k) (b.slice (16 * k) 16).octets (line k (b.slice (16 * k) 16).octets) := by
  apply tells_line
  rw [Bytes.length_octets, Bytes.size_slice]
  exact Nat.min_le_left ..

theorem newline_not_mem_texts (b : Bytes) : ∀ text ∈ texts b, '\n' ∉ text := by
  intro text htext
  obtain ⟨k, -, rfl⟩ := List.mem_map.1 htext
  exact (tells_row b k).newline_not_mem

theorem mapM_readLine?_texts (b : Bytes) : (texts b).mapM readLine? = some (rows b) := by
  rw [texts, List.mapM_map]
  simp only [Function.comp_def, (tells_row b _).readLine?]
  exact List.mapM_pure

theorem flatten_firstRows (b : Bytes) (n : Nat) :
    ((List.range n).map fun k => (b.slice (16 * k) 16).octets).flatten =
      b.octets.take (16 * n) := by
  induction n with
  | zero => rfl
  | succ n ih =>
    rw [List.range_succ, List.map_append, List.flatten_append, ih, Nat.mul_succ, List.take_add,
      ← Bytes.octets_slice]
    simp only [List.map_cons, List.map_nil, List.flatten_singleton]

theorem flatten_rows (b : Bytes) : (rows b).flatten = b.octets := by
  refine (flatten_firstRows b _).trans (List.take_of_length_le ?_)
  rw [Bytes.length_octets, rowSize]
  omega

theorem splitOn_newline {texts : List (List Char)} (h : ∀ text ∈ texts, '\n' ∉ text) :
    (texts.flatMap (· ++ ['\n'])).splitOn '\n' = texts ++ [[]] := by
  induction texts with
  | nil => rfl
  | cons text texts ih =>
    rw [List.flatMap_cons, List.append_assoc]
    refine (List.splitOn_append_cons_self_of_not_mem (h text List.mem_cons_self) _).trans ?_
    exact congrArg (text :: ·) (ih fun other hother => h other (List.mem_cons_of_mem _ hother))

theorem undump?_text (b : Bytes) : undump? (text b) = some b := by
  have htext : text b = (texts b).flatMap (· ++ ['\n']) := by
    simp only [text, lines_eq, List.flatMap_map, String.toList_ofList]
  rw [undump?, htext, splitOn_newline (newline_not_mem_texts b), List.dropLast_concat,
    mapM_readLine?_texts]
  exact congrArg some ((congrArg Bytes.ofOctets (flatten_rows b)).trans (Bytes.ofOctets_octets b))

end Dump

namespace CommandLine

theorem run_printAll (lines : List String) (v : BlockFile) (t : Transcript) :
    (lines.forM print).run (v, t) =
      (.ok (), v, { t with printed := lines.reverse ++ t.printed }) := by
  induction lines generalizing t with
  | nil => rfl
  | cons line lines ih =>
    rw [List.reverse_cons, List.append_assoc]
    exact ih (t.print line)

end CommandLine

open CommandLine (BlockFile Transcript print run_printAll)

/-- A dump loses nothing of the bytes. It prints a line for every sixteen of them and for those that are
left, and each line tells where its row starts and what its bytes are, in hexadecimal and as text. The
fields of the lines, read in order, are the bytes, so that no other bytes have the same dump. -/
theorem dump_loses_nothing (b : Bytes) :
    (∀ (v : BlockFile) (t : Transcript), ∃ u : Transcript,
      ((Dump.lines b).forM print).run (v, t) = (.ok (), v, u) ∧
        u.lines = t.lines ++ Dump.lines b ∧ u.entries = t.entries) ∧
      (Dump.lines b).length = (b.size + 15) / 16 ∧
      (∀ k < (b.size + 15) / 16, ∃ line, (Dump.lines b)[k]? = some line ∧
        Dump.Tells (16 * k) (b.slice (16 * k) 16).octets line.toList) ∧
      Dump.undump? (Dump.text b) = some b ∧
      ∀ other, Dump.text other = Dump.text b → other = b := by
  refine ⟨fun v t => ⟨_, run_printAll _ v t, ?_, rfl⟩, ?_, ?_, Dump.undump?_text b, ?_⟩
  · rw [Transcript.lines, List.reverse_append, List.reverse_reverse]
    rfl
  · rw [Dump.lines_eq, List.length_map, Dump.texts, List.length_map, List.length_range]
  · intro k hk
    rw [Dump.lines_eq, Dump.texts, List.getElem?_map, List.getElem?_map, List.getElem?_range hk]
    refine ⟨_, rfl, ?_⟩
    rw [String.toList_ofList]
    exact Dump.tells_row b k
  · intro other h
    have hother := Dump.undump?_text other
    rw [h, Dump.undump?_text] at hother
    exact (Option.some.inj hother).symm

/-- A row whose text looks like an offset, and a short one whose text looks like a field. -/
theorem dump_loses_nothing_of_lookalike :
    let b : Bytes := "00000010  20 0a  20 20".toUTF8
    Dump.lines b =
        ["00000000  30 30 30 30 30 30 31 30 20 20 32 30 20 30 61 20  00000010  20 0a ",
          "00000010  20 32 30 20 32 30                                 20 20"] ∧
      Dump.undump? (Dump.text b) = some b ∧ Dump.text (b.slice 0 21) ≠ Dump.text b := by
  intro b
  obtain ⟨-, -, -, hread, hother⟩ := dump_loses_nothing b
  exact ⟨by decide +kernel, hread, fun h => absurd (hother _ h) (by decide +kernel)⟩

end ByteTower
