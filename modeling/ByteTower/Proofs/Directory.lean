import ByteTower.Medium.Directory

namespace ByteTower

theorem Path.read_eq_split {text : String} (hzero : (text.toList.any fun c => c.toNat = 0) = false)
    (hempty : text ≠ "") (hsize : text.utf8ByteSize ≤ Path.maxSize) :
    Path.read text = .ok (Path.split text) := by
  rw [read, if_neg (Bool.not_eq_true _ ▸ hzero), if_neg hempty, if_neg (Nat.not_lt.2 hsize)]

namespace Directory

variable {d d' : Directory} {name other path : String} {bytes : Bytes} {mode : OpenMode}
variable {h : FileHandle}

private def renew (name : String) (bytes : Bytes) (file : String × Bytes) : String × Bytes :=
  if file.1 == name then (name, bytes) else file

private theorem put_of_any (hany : d.files.any (·.1 == name) = true) :
    d.put name bytes = { files := d.files.map (renew name bytes) } := if_pos hany

private theorem put_of_none (hany : ¬d.files.any (·.1 == name) = true) :
    d.put name bytes = { files := d.files ++ [(name, bytes)] } := if_neg hany

private theorem map_renew_of_none {files : List (String × Bytes)}
    (hany : ¬files.any (·.1 == name) = true) : files.map (renew name bytes) = files := by
  refine (List.map_congr_left fun file hfile => ?_).trans (List.map_id files)
  refine if_neg fun heq => hany (List.any_eq_true.2 ⟨file, hfile, heq⟩)

private theorem any_renew (files : List (String × Bytes)) :
    (files.map (renew name bytes)).any (·.1 == name) = files.any (·.1 == name) := by
  rw [List.any_map]
  refine congrArg files.any (funext fun file => ?_)
  show ((renew name bytes file).1 == name) = (file.1 == name)
  unfold renew
  split
  case isTrue heq => rw [heq, beq_self_eq_true]
  case isFalse => rfl

private theorem lookup_renew (files : List (String × Bytes)) (other : String) :
    (files.map (renew name bytes)).lookup other =
      if other = name then (files.lookup name).map fun _ => bytes else files.lookup other := by
  induction files with
  | nil => split <;> rfl
  | cons file files ih =>
    obtain ⟨key, old⟩ := file
    by_cases hkey : key = name
    · have hfile : renew name bytes (key, old) = (name, bytes) := if_pos (beq_iff_eq.2 hkey)
      rw [List.map_cons, hfile, List.lookup_cons, List.lookup_cons, List.lookup_cons, ih, hkey]
      by_cases hother : other = name
      · simp [hother]
      · simp [hother, beq_false_of_ne hother]
    · have hfile : renew name bytes (key, old) = (key, old) := if_neg (mt beq_iff_eq.1 hkey)
      rw [List.map_cons, hfile, List.lookup_cons, List.lookup_cons, List.lookup_cons, ih]
      by_cases hother : other = name
      · simp [hother, beq_false_of_ne (Ne.symm hkey)]
      · simp only [if_neg hother]

theorem find?_put (d : Directory) (name : String) (bytes : Bytes) (other : String) :
    (d.put name bytes).find? other = if other = name then some bytes else d.find? other := by
  by_cases hany : d.files.any (·.1 == name) = true
  · rw [put_of_any hany, find?, lookup_renew]
    obtain ⟨file, hmem, hfile⟩ := List.any_eq_true.1 hany
    have hsome : (d.files.lookup name).isSome :=
      List.lookup_isSome_iff.2 ⟨file, hmem, beq_iff_eq.2 (beq_iff_eq.1 hfile).symm⟩
    obtain ⟨old, hold⟩ := Option.isSome_iff_exists.1 hsome
    rw [hold]
    rfl
  · rw [put_of_none hany, find?, List.lookup_append]
    by_cases hother : other = name
    · have hnone : d.files.lookup name = none := by
        refine List.lookup_eq_none_iff.2 fun file hfile => ?_
        rw [bne_iff_ne]
        exact fun heq => hany (List.any_eq_true.2 ⟨file, hfile, beq_iff_eq.2 heq.symm⟩)
      simp [hother, hnone]
    · simp [hother, find?, List.lookup_cons, beq_false_of_ne hother]

theorem put_put (d : Directory) (name : String) (before after : Bytes) :
    (d.put name before).put name after = d.put name after := by
  by_cases hany : d.files.any (·.1 == name) = true
  · have hagain : (d.put name before).files.any (·.1 == name) = true := by
      rw [put_of_any hany, any_renew, hany]
    rw [put_of_any hagain, put_of_any hany, put_of_any hany, List.map_map]
    refine congrArg Directory.mk (List.map_congr_left fun file _ => ?_)
    show renew name after (renew name before file) = renew name after file
    by_cases heq : (file.1 == name) = true
    · simp only [renew, if_pos heq, beq_self_eq_true, if_true]
    · simp only [renew, if_neg heq]
  · have hagain : (d.put name before).files.any (·.1 == name) = true := by
      simp [put_of_none hany]
    rw [put_of_any hagain, put_of_none hany, put_of_none hany, List.map_append,
      map_renew_of_none hany]
    simp [renew]

/-- Opening a file yields a handle on the bytes that it has by then, and leaves the others as they are. -/
theorem openFile_eq_ok (hopen : d.openFile mode path = .ok (h, d')) :
    h = { name := h.name, bytes := mode.initial (d.find? h.name) } ∧
      d' = d.put h.name (mode.initial (d.find? h.name)) := by
  simp only [openFile, bind, Except.bind, pure, Except.pure, throw, throwThe,
    MonadExceptOf.throw] at hopen
  split at hopen
  case h_1 => cases hopen
  case h_2 p _ =>
    split at hopen
    case h_1 => cases hopen
    case h_2 target _ =>
      cases target with
      | directory => cases hopen
      | entry within name =>
        dsimp only at hopen
        split at hopen
        · cases hopen
        split at hopen
        · cases hopen
        split at hopen
        · cases hopen
          exact ⟨rfl, rfl⟩
        · cases hopen

theorem openFile_of_name (hread : Path.read path = .ok
      { steps := [name], fromRoot := false, slashed := false })
    (hdot : name ≠ ".") (hdots : name ≠ "..") (hsize : name.utf8ByteSize ≤ Path.maxNameSize) :
    d.openFile mode path = .ok ({ name, bytes := mode.initial (d.find? name) },
      d.put name (mode.initial (d.find? name))) := by
  have hfollow : d.follow true [name] = .ok (.entry true name) := by
    rw [follow, if_neg hdot, if_neg hdots, if_pos rfl]
  have hresolve : d.resolve { steps := [name], fromRoot := false, slashed := false } =
      .ok (.entry true name) := by
    simp only [resolve, Bool.not_false, hfollow]
    rfl
  simp only [openFile, hread, bind, Except.bind, hresolve, Bool.false_eq_true, if_false,
    if_neg (Nat.not_lt.2 hsize), if_true]
  rfl

end Directory

end ByteTower
