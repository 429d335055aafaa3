import Mathlib
import TensorParity.Backend.Basic
import TensorParity.File.System

/-!
Names in paths. A name that is joined to a path is the last one of the result.
-/
namespace TensorParity

namespace Path

variable {separator : Char} {p : Path}

theorem pieces_ne_nil (cs : List Char) : pieces separator cs ≠ [] := by
  cases cs with
  | nil => simp [pieces]
  | cons c cs =>
    unfold pieces
    split
    · simp
    · split <;> simp

/-- A text without separators is one piece. -/
theorem pieces_of_not_mem {cs : List Char} (h : separator ∉ cs) : pieces separator cs = [cs] := by
  induction cs with
  | nil => rfl
  | cons c cs ih =>
    rw [List.mem_cons, not_or] at h
    rw [pieces, if_neg (Ne.symm h.1), ih h.2]

theorem pieces_append (cs rest : List Char) :
    pieces separator (cs ++ separator :: rest) = pieces separator cs ++ pieces separator rest := by
  induction cs with
  | nil => simp [pieces]
  | cons c cs ih =>
    rw [List.cons_append, pieces, pieces, ih]
    split
    · rfl
    · cases hpieces : pieces separator cs with
      | nil => exact absurd hpieces (pieces_ne_nil cs)
      | cons piece more => rfl

theorem not_mem_of_mem_pieces {cs piece : List Char} (h : piece ∈ pieces separator cs) :
    separator ∉ piece := by
  induction cs generalizing piece with
  | nil =>
    obtain rfl := List.mem_singleton.mp h
    simp
  | cons c cs ih =>
    unfold pieces at h
    split at h
    · rcases List.mem_cons.mp h with rfl | h
      · simp
      · exact ih h
    · rename_i hc
      split at h
      · rename_i first more hpieces
        have hfirst : separator ∉ first := ih (by rw [hpieces]; simp)
        rcases List.mem_cons.mp h with rfl | h
        · simpa using ⟨Ne.symm hc, hfirst⟩
        · exact ih (by rw [hpieces]; simp [h])
      · obtain rfl := List.mem_singleton.mp h
        simpa using Ne.symm hc

/-- What does not separate stands in a piece. -/
theorem exists_mem_pieces {cs : List Char} {c : Char} (hc : c ∈ cs) (hne : c ≠ separator) :
    ∃ piece ∈ pieces separator cs, c ∈ piece := by
  induction cs with
  | nil => cases hc
  | cons first cs ih =>
    unfold pieces
    split
    · rename_i hfirst
      obtain ⟨piece, hpiece, hmem⟩ := ih (List.mem_of_ne_of_mem (hfirst ▸ hne) hc)
      exact ⟨piece, List.mem_cons_of_mem _ hpiece, hmem⟩
    · cases hpieces : pieces separator cs with
      | nil => exact absurd hpieces (pieces_ne_nil cs)
      | cons piece rest =>
        rcases List.mem_cons.mp hc with rfl | hc
        · exact ⟨c :: piece, by simp, by simp⟩
        · obtain ⟨found, hfound, hmem⟩ := ih hc
          rw [hpieces] at hfound
          rcases List.mem_cons.mp hfound with rfl | hfound
          · exact ⟨first :: found, by simp, by simp [hmem]⟩
          · exact ⟨found, by simp [hfound], hmem⟩

theorem mem_of_mem_trimEnd {absolute : Bool} {ps : List (List Char)} {piece : List Char}
    (h : piece ∈ trimEnd absolute ps) : piece ∈ ps := by
  induction ps with
  | nil => simp [trimEnd] at h
  | cons first ps ih =>
    unfold trimEnd at h
    split at h
    · exact h
    · exact List.mem_cons_of_mem _ (ih h)

theorem not_mem_fileName {name : String} (h : p.fileName? = some name) : '/' ∉ name.toList := by
  unfold fileName? at h
  split at h
  · simp at h
  · rename_i piece before htrim
    split at h
    · simp at h
    · obtain rfl := Option.some.inj h
      have hmem : piece ∈ p.body := by
        have := mem_of_mem_trimEnd (by rw [htrim]; simp : piece ∈ trimEnd true p.body.reverse)
        simpa using this
      unfold body at hmem
      rw [String.toList_ofList]
      split at hmem <;> exact not_mem_of_mem_pieces hmem

theorem not_mem_stem {name : String} {c : Char} (h : c ∉ name.toList) : c ∉ (stem name).toList := by
  unfold stem
  split
  · exact h
  · exact h
  · rename_i dot before hsuffix
    rw [String.toList_ofList]
    intro hc
    have hmem : c ∈ name.toList.reverse.dropWhile (· ≠ '.') := by
      rw [hsuffix]
      simpa using .inr (List.mem_reverse.mp hc)
    exact h (List.mem_reverse.mp ((List.dropWhile_sublist _).mem hmem))

/-- What is joined to a path stands behind a slash, unless the path has no text. The slash may be the
path's own. -/
theorem text_join_cases {next : String} (hhead : next.toList.head? ≠ some '/') (dir : Path) :
    (∃ start, (dir.join next).text.toList = start ++ '/' :: next.toList ∧
      (dir.text.toList = start ++ ['/'] ∨ dir.text.toList = start ∧ start ≠ [])) ∨
    (dir.join next).text.toList = next.toList ∧ dir.text.toList = [] := by
  unfold join
  rw [if_neg hhead]
  split
  · rename_i hend
    rcases hend with hempty | hslash
    · have hnil := List.getLast?_eq_none_iff.mp hempty
      exact .inr ⟨by simp [hnil], hnil⟩
    · obtain ⟨start, hstart⟩ := List.getLast?_eq_some_iff.mp hslash
      exact .inl ⟨start, by simp [hstart], .inl hstart⟩
  · rename_i hend
    refine .inl ⟨dir.text.toList, by simp, .inr ⟨rfl, ?_⟩⟩
    rw [not_or, List.getLast?_eq_none_iff] at hend
    exact hend.1

/-- The pieces of what is joined to a path stand at the end of the result, and before them stand the
names of the path. -/
theorem body_join_pieces {next : String} (hhead : next.toList.head? ≠ some '/') (dir : Path) :
    ∃ before, (dir.join next).body = before ++ pieces '/' next.toList ∧
      before.filter (· ≠ []) = dir.body.filter (· ≠ []) ∧
      (next.toList ≠ [] → (dir.join next).isAbsolute = dir.isAbsolute) := by
  obtain ⟨start, htext, hdir⟩ | ⟨htext, hdir⟩ := text_join_cases hhead dir
  · -- what stands between the root and what is joined is the same in both texts
    have hbody (cs : List Char) : (pieces '/' (cs ++ ['/'])).filter (· ≠ []) =
        (pieces '/' cs).filter (· ≠ []) := by
      rw [pieces_append]
      simp [pieces]
    have hpieces (cs : List Char) : pieces '/' (cs ++ '/' :: next.toList) =
        pieces '/' cs ++ pieces '/' next.toList :=
      pieces_append cs next.toList
    unfold body isAbsolute
    rw [htext]
    cases start with
    | nil =>
      obtain hdir | ⟨-, hne⟩ := hdir
      · rw [hdir]
        exact ⟨[], by simp, by simp [pieces], by simp⟩
      · exact absurd rfl hne
    | cons c start =>
      have habsolute : ((c :: start) ++ '/' :: next.toList).head? = dir.text.toList.head? := by
        rcases hdir with hdir | ⟨hdir, -⟩ <;> simp [hdir]
      rw [habsolute]
      split
      · refine ⟨pieces '/' start, by simpa using hpieces start, ?_, fun _ => rfl⟩
        rcases hdir with hdir | ⟨hdir, -⟩
        · simpa [hdir] using (hbody start).symm
        · simp [hdir]
      · refine ⟨pieces '/' (c :: start), hpieces (c :: start), ?_, fun _ => rfl⟩
        rcases hdir with hdir | ⟨hdir, -⟩
        · rw [hdir]
          exact (hbody (c :: start)).symm
        · rw [hdir]
  · unfold body isAbsolute
    rw [htext, hdir, if_neg (by simpa using hhead)]
    exact ⟨[], rfl, by simp [pieces], fun hne => by simp [hhead]⟩

/-- A name that is joined to a path is the last piece of the result. -/
theorem body_join {name : String} (hname : '/' ∉ name.toList) (dir : Path) :
    ∃ before, (dir.join name).body = before ++ [name.toList] ∧
      before.filter (· ≠ []) = dir.body.filter (· ≠ []) ∧
      (name.toList ≠ [] → (dir.join name).isAbsolute = dir.isAbsolute) := by
  rw [← pieces_of_not_mem hname]
  exact body_join_pieces (fun hslash => hname (List.mem_of_head? hslash)) dir

theorem getLast?_join {name : String} (hname : '/' ∉ name.toList) (hne : name.toList ≠ [])
    (dir : Path) : (FileSystem.pathNames (dir.join name)).getLast? = some name := by
  obtain ⟨before, hbody, -⟩ := body_join hname dir
  simp [FileSystem.pathNames, hbody, hne]

theorem fileName?_join {name : String} (hname : '/' ∉ name.toList) (hne : name.toList ≠ [])
    (hdot : name.toList ≠ ['.']) (hdots : name.toList ≠ ['.', '.']) (dir : Path) :
    (dir.join name).fileName? = some name := by
  obtain ⟨before, hbody, -⟩ := body_join hname dir
  have hnames : names false name.toList = true := by simp [names, hne, hdot]
  rw [fileName?, hbody, List.reverse_concat, trimEnd]
  simp [hnames, hdots]

/-! Parents. -/

/-- What is dropped at the end of a path names nothing. -/
theorem trimEnd_split (absolute : Bool) (ps : List (List Char)) :
    ∃ dropped, ps = dropped ++ trimEnd absolute ps ∧
      ∀ piece ∈ dropped, piece = [] ∨ piece = ['.'] := by
  induction ps with
  | nil => exact ⟨[], rfl, nofun⟩
  | cons piece before ih =>
    unfold trimEnd
    split
    · exact ⟨[], rfl, nofun⟩
    · rename_i hnames
      obtain ⟨dropped, hsplit, hdropped⟩ := ih
      refine ⟨piece :: dropped, by rw [List.cons_append, ← hsplit], ?_⟩
      rw [List.forall_mem_cons]
      refine ⟨?_, hdropped⟩
      simp only [names, Bool.and_eq_true, Bool.or_eq_true, decide_eq_true_eq, not_and_or] at hnames
      tauto

/-- What ends a path names something. -/
theorem ne_nil_of_trimEnd {absolute : Bool} {ps before : List (List Char)} {piece : List Char}
    (h : trimEnd absolute ps = piece :: before) : piece ≠ [] := by
  induction ps with
  | nil => cases h
  | cons first ps ih =>
    unfold trimEnd at h
    split at h
    · rename_i hnames
      obtain ⟨rfl, -⟩ := List.cons.inj h
      simp only [names, Bool.and_eq_true, decide_eq_true_eq] at hnames
      exact hnames.1
    · exact ih h

/-- What ends a path but for dots is no dot. -/
theorem named_of_trimEnd {ps before : List (List Char)} {piece : List Char}
    (h : trimEnd true ps = piece :: before) : piece ≠ [] ∧ piece ≠ ['.'] := by
  refine ⟨ne_nil_of_trimEnd h, ?_⟩
  induction ps with
  | nil => cases h
  | cons first ps ih =>
    unfold trimEnd at h
    split at h
    · rename_i hnames
      obtain ⟨rfl, -⟩ := List.cons.inj h
      rintro rfl
      simp [names] at hnames
    · exact ih h

theorem ofList_ne {cs : List Char} {text : String} (h : cs ≠ text.toList) :
    String.ofList cs ≠ text := by
  rintro rfl
  exact h String.toList_ofList.symm

/-- Pieces with separators between them are the pieces of their text. -/
theorem pieces_intercalate {ps : List (List Char)} (h : ∀ piece ∈ ps, separator ∉ piece)
    (hne : ps ≠ []) : pieces separator ([separator].intercalate ps) = ps := by
  induction ps with
  | nil => exact absurd rfl hne
  | cons piece rest ih =>
    rw [List.forall_mem_cons] at h
    cases rest with
    | nil => simpa [List.intercalate] using pieces_of_not_mem h.1
    | cons next rest =>
      have htext : [separator].intercalate (piece :: next :: rest) =
          piece ++ separator :: [separator].intercalate (next :: rest) := by
        simp [List.intercalate, List.intersperse]
      rw [htext, pieces_append, pieces_of_not_mem h.1, ih h.2 (by simp)]
      rfl

theorem not_mem_of_mem_body {piece : List Char} (h : piece ∈ p.body) : '/' ∉ piece := by
  unfold body at h
  split at h <;> exact not_mem_of_mem_pieces h

/-- A text that does not begin with a separator does not begin with an empty piece before others. -/
theorem ne_nil_of_pieces {cs first next : List Char} {rest : List (List Char)}
    (hhead : cs.head? ≠ some separator) (hpieces : pieces separator cs = first :: next :: rest) :
    first ≠ [] := by
  cases cs with
  | nil => simp [pieces] at hpieces
  | cons c cs =>
    rw [pieces, if_neg (by simpa using hhead)] at hpieces
    split at hpieces
    · rw [← (List.cons.inj hpieces).1]
      simp
    · simp at hpieces

theorem head?_intercalate {first : List Char} {rest : List (List Char)} (hne : first ≠ []) :
    ([separator].intercalate (first :: rest)).head? = first.head? := by
  cases rest with
  | nil => simp [List.intercalate]
  | cons next rest => simp [List.intercalate, List.intersperse, List.head?_append_of_ne_nil _ hne]

/-- The first pieces of a relative path do not begin with a slash. -/
theorem head?_of_body {p : Path} {kept rest : List (List Char)} (hrelative : p.isAbsolute = false)
    (hbody : p.body = kept ++ rest) (hrest : rest ≠ []) :
    (['/'].intercalate kept).head? ≠ some '/' := by
  cases kept with
  | nil => simp [List.intercalate]
  | cons first others =>
    have hhead : p.text.toList.head? ≠ some '/' := by simpa [isAbsolute] using hrelative
    have hpieces : pieces '/' p.text.toList = first :: (others ++ rest) := by
      rw [← List.cons_append, ← hbody, body, hrelative]
      rfl
    obtain ⟨next, after, hnext⟩ := List.exists_cons_of_ne_nil
      (List.append_ne_nil_of_right_ne_nil others hrest)
    have hfirst := ne_nil_of_pieces hhead (hpieces.trans (by rw [hnext]))
    have hslash : '/' ∉ first := not_mem_of_mem_body (p := p) (by simp [hbody])
    rw [head?_intercalate hfirst]
    exact fun hc => hslash (List.mem_of_head? hc)

/-- A path that is put together from pieces has these pieces. -/
theorem body_intercalate {root : Bool} {kept : List (List Char)}
    (hslash : ∀ piece ∈ kept, '/' ∉ piece)
    (hhead : root = false → (['/'].intercalate kept).head? ≠ some '/') :
    let p : Path := ⟨String.ofList ((if root then ['/'] else []) ++ ['/'].intercalate kept)⟩
    p.isAbsolute = root ∧ p.body.filter (· ≠ []) = kept.filter (· ≠ []) := by
  have hpieces : (pieces '/' (['/'].intercalate kept)).filter (· ≠ []) = kept.filter (· ≠ []) := by
    by_cases hempty : kept = []
    · simp [hempty, List.intercalate, pieces]
    · rw [pieces_intercalate hslash hempty]
  refine ⟨?_, ?_⟩
  · cases root with
    | false => simpa [isAbsolute] using hhead rfl
    | true => simp [isAbsolute]
  · rw [← hpieces]
    unfold body
    cases root with
    | false => simp [isAbsolute, hhead rfl]
    | true => simp [isAbsolute]

/-- A path has a parent if a piece of it names something, and what stands before that piece names the
parent. -/
theorem parent?_of_trimEnd {piece : List Char} {before : List (List Char)}
    (htrim : trimEnd p.isAbsolute p.body.reverse = piece :: before) :
    ∃ parent dropped, p.parent? = some parent ∧ parent.isAbsolute = p.isAbsolute ∧
      before.reverse.filter (· ≠ []) = parent.body.filter (· ≠ []) ++ dropped ∧
      ∀ dot ∈ dropped, dot = ['.'] := by
  obtain ⟨ended, hbody, -⟩ := trimEnd_split p.isAbsolute p.body.reverse
  obtain ⟨dropped, hsplit, hdropped⟩ := trimEnd_split p.isAbsolute before
  have hparent : p.parent? = some ⟨String.ofList ((if p.isAbsolute then ['/'] else []) ++
      ['/'].intercalate (trimEnd p.isAbsolute before).reverse)⟩ := by
    rw [parent?, htrim]
  generalize hkept : (trimEnd p.isAbsolute before).reverse = kept at hparent
  have hbefore : before.reverse = kept ++ dropped.reverse := by
    rw [hsplit, List.reverse_append, hkept]
  have hbody' : p.body = kept ++ (dropped.reverse ++ piece :: ended.reverse) := by
    rw [← List.reverse_reverse p.body, hbody, htrim]
    simp [hbefore]
  have hslash : ∀ x ∈ kept, '/' ∉ x := fun x hx =>
    not_mem_of_mem_body (p := p) (by simp [hbody', hx])
  obtain ⟨hroot, hpieces⟩ := body_intercalate hslash fun hrelative =>
    head?_of_body hrelative hbody' (by simp)
  refine ⟨_, dropped.reverse.filter (· ≠ []), hparent, hroot, ?_, fun dot hdot => ?_⟩
  · rw [hpieces, hbefore, List.filter_append]
  · obtain ⟨hmem, hne⟩ := List.mem_filter.mp hdot
    rcases hdropped dot (List.mem_reverse.mp hmem) with rfl | rfl
    · simp at hne
    · rfl

/-- The parent of a joined name has the names of the path, but for dots at its end. -/
theorem parent?_join {name : String} (hname : '/' ∉ name.toList) (hne : name.toList ≠ [])
    (hdot : name.toList ≠ ['.']) (dir : Path) :
    ∃ parent dropped, (dir.join name).parent? = some parent ∧
      parent.isAbsolute = dir.isAbsolute ∧
      dir.body.filter (· ≠ []) = parent.body.filter (· ≠ []) ++ dropped ∧
      ∀ piece ∈ dropped, piece = ['.'] := by
  obtain ⟨before, hbody, hbefore, habsolute⟩ := body_join hname dir
  have htrim : trimEnd (dir.join name).isAbsolute (dir.join name).body.reverse =
      name.toList :: before.reverse := by
    rw [hbody, List.reverse_concat, trimEnd, if_pos]
    simp [names, hne, hdot]
  obtain ⟨parent, dropped, hparent, hroot, hnames, hdropped⟩ := parent?_of_trimEnd htrim
  rw [List.reverse_reverse, hbefore] at hnames
  exact ⟨parent, dropped, hparent, hroot.trans (habsolute hne), hnames, hdropped⟩

/-- The names of a parent begin the names of the path, and something follows them. -/
theorem pathNames_parent {parent : Path} (h : p.parent? = some parent) :
    parent.isAbsolute = p.isAbsolute ∧
      ∃ rest ≠ [], FileSystem.pathNames p = FileSystem.pathNames parent ++ rest := by
  cases htrim : trimEnd p.isAbsolute p.body.reverse with
  | nil => simp [parent?, htrim] at h
  | cons piece before =>
    obtain ⟨parent', dropped, hparent, hroot, hnames, -⟩ := parent?_of_trimEnd htrim
    obtain rfl := Option.some.inj (hparent.symm.trans h)
    obtain ⟨ended, hbody, -⟩ := trimEnd_split p.isAbsolute p.body.reverse
    have hpiece : piece ≠ [] := ne_nil_of_trimEnd htrim
    have hbody' : p.body = before.reverse ++ piece :: ended.reverse := by
      rw [← List.reverse_reverse p.body, hbody, htrim]
      simp
    refine ⟨hroot, (dropped ++ piece :: ended.reverse.filter (· ≠ [])).map String.ofList,
      by simp, ?_⟩
    rw [FileSystem.pathNames, hbody', List.filter_append, hnames]
    simp [FileSystem.pathNames, hpiece]

/-- A piece that is no dot ends a path whether or not the path begins at the root. -/
theorem trimEnd_of_true {ps before : List (List Char)} {piece : List Char}
    (h : trimEnd true ps = piece :: before) (absolute : Bool) :
    trimEnd absolute ps = piece :: before := by
  induction ps with
  | nil => cases h
  | cons first ps ih =>
    unfold trimEnd at h ⊢
    split at h
    · rename_i hnames
      rw [if_pos, h]
      simp only [names, Bool.not_true, Bool.false_and, Bool.or_false, Bool.and_eq_true] at hnames ⊢
      simp [hnames.1, hnames.2]
    · rename_i hnames
      specialize ih h
      rw [if_neg, ih]
      -- something comes before the piece, so it does not begin the path
      have hne : ps ≠ [] := by
        rintro rfl
        cases h
      simpa [names, hne] using hnames

/-- The file name of a path is its last name but for dots, and what stands before it names the
parent. -/
theorem parent?_of_fileName {name : String} (h : p.fileName? = some name) :
    name ≠ "." ∧ name ≠ ".." ∧ name ≠ "" ∧
      ∃ parent dropped dots, p.parent? = some parent ∧ parent.isAbsolute = p.isAbsolute ∧
        FileSystem.pathNames p = FileSystem.pathNames parent ++ dropped ++ name :: dots ∧
        (∀ dot ∈ dropped, dot = ".") ∧ ∀ dot ∈ dots, dot = "." := by
  unfold fileName? at h
  cases htrim : trimEnd true p.body.reverse with
  | nil => simp [htrim] at h
  | cons piece before =>
    simp only [htrim, Option.ite_none_left_eq_some, Option.some.injEq] at h
    obtain ⟨hdots, rfl⟩ := h
    obtain ⟨parent, dropped, hparent, hroot, hnames, hdropped⟩ :=
      parent?_of_trimEnd (trimEnd_of_true htrim p.isAbsolute)
    obtain ⟨ended, hbody, hended⟩ := trimEnd_split true p.body.reverse
    have hbody' : p.body = before.reverse ++ piece :: ended.reverse := by
      rw [← List.reverse_reverse p.body, hbody, htrim]
      simp
    obtain ⟨hne, hdot⟩ := named_of_trimEnd htrim
    refine ⟨ofList_ne hdot, ofList_ne hdots, ofList_ne hne, parent, dropped.map String.ofList,
      (ended.reverse.filter (· ≠ [])).map String.ofList, hparent, hroot, ?_, fun dot hmem => ?_,
      fun dot hmem => ?_⟩
    · rw [FileSystem.pathNames, hbody', List.filter_append, hnames]
      simp [FileSystem.pathNames, hne]
    · obtain ⟨x, hx, rfl⟩ := List.mem_map.mp hmem
      rw [hdropped x hx]
    · obtain ⟨x, hx, rfl⟩ := List.mem_map.mp hmem
      obtain ⟨hx, hfilled⟩ := List.mem_filter.mp hx
      rcases hended x (List.mem_reverse.mp hx) with rfl | rfl
      · simp at hfilled
      · rfl

/-- A path without a file name and without double dots has no parent with a name. -/
theorem namedParent?_of_noName (hname : p.fileName? = none) (h : ".." ∉ FileSystem.pathNames p) :
    p.namedParent? = none := by
  have htrim : trimEnd true p.body.reverse = [] := by
    unfold fileName? at hname
    split at hname
    · assumption
    · rename_i piece before htrim
      simp only [ite_eq_left_iff, reduceCtorEq, imp_false, not_not] at hname
      subst hname
      refine absurd (List.mem_map.mpr ⟨['.', '.'], List.mem_filter.mpr ⟨?_, by simp⟩, rfl⟩) h
      have := mem_of_mem_trimEnd (by rw [htrim]; simp : ['.', '.'] ∈ trimEnd true p.body.reverse)
      simpa using this
  rw [namedParent?, parent?]
  cases hroot : p.isAbsolute with
  | true => rw [htrim]; rfl
  | false =>
    -- only a dot that begins the path is left
    have hfirst (ps : List (List Char)) (hps : trimEnd true ps = []) :
        trimEnd false ps = [] ∨ ∃ first, trimEnd false ps = [first] := by
      induction ps with
      | nil => exact .inl rfl
      | cons piece before ih =>
        unfold trimEnd at hps ⊢
        split at hps
        · cases hps
        · rename_i hnames
          split
          · rename_i hnames'
            cases before with
            | nil => exact .inr ⟨piece, rfl⟩
            | cons next before => exact absurd hnames' hnames
          · exact ih hps
    rcases hfirst _ htrim with hnil | ⟨first, hsingle⟩
    · rw [hnil]; rfl
    · rw [hsingle]; rfl

end Path

end TensorParity
