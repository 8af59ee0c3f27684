import Mathlib.Data.List.Forall2
import NilFlow.Group

/-!
# Keys of elements

When the texts that name elements in every run are equal.

* `append_colon_inj`, `append_dot_eq_iff`: a text is cut at its last colon in one way, at a dot in several.
* `SourceFile.line_column_inj`: line and column tell the positions of a file, except where line directives shift them.
* `Variable.Keyed`: what keys rely on: names without dots and colons, export paths without colons, and lines from the
  start of the file on.
* `Variable.Clash`: the ways in which two variables come to share a key; `elementKey_eq_iff` says that there are no
  others.
* `groupKey_eq_iff`: keys of one line each can be read back from the text that identifies a group.
-/

namespace NilFlow

/-! ## Cutting texts -/

section Cutting

variable {s t x y : String}

/-- Lists cut at one separator are equal when their parts are, or when one cut lies within the beginning of the
other. -/
theorem append_cons_eq_iff {α : Type} {c : α} {xs ys as bs : List α} : xs ++ c :: as = ys ++ c :: bs ↔
    (xs = ys ∧ as = bs) ∨ (∃ mid, ys = xs ++ c :: mid ∧ as = mid ++ c :: bs) ∨
      ∃ mid, xs = ys ++ c :: mid ∧ bs = mid ++ c :: as := by
  constructor
  · intro h
    rcases List.append_eq_append_iff.1 h with ⟨mid, hlong, hmid⟩ | ⟨mid, hlong, hmid⟩
    · cases mid with
      | nil => exact Or.inl ⟨by simpa using hlong.symm, (List.cons.inj hmid).2⟩
      | cons d mid =>
        obtain ⟨rfl, hrest⟩ := List.cons.inj hmid
        exact Or.inr (Or.inl ⟨mid, hlong, hrest⟩)
    · cases mid with
      | nil => exact Or.inl ⟨by simpa using hlong, (List.cons.inj hmid).2.symm⟩
      | cons d mid =>
        obtain ⟨rfl, hrest⟩ := List.cons.inj hmid
        exact Or.inr (Or.inr ⟨mid, hlong, hrest⟩)
  · rintro (⟨rfl, rfl⟩ | ⟨mid, rfl, rfl⟩ | ⟨mid, rfl, rfl⟩)
    · rfl
    · simp
    · simp

theorem toList_append_colon (s x : String) : (s ++ ":" ++ x).toList = s.toList ++ ':' :: x.toList := by
  simp [String.toList_append]

theorem toList_append_dot (s x : String) : (s ++ "." ++ x).toList = s.toList ++ '.' :: x.toList := by
  simp [String.toList_append]

/-- Texts are equal exactly when they are equal before and behind their last colons. -/
theorem append_colon_inj (hx : ':' ∉ x.toList) (hy : ':' ∉ y.toList) :
    s ++ ":" ++ x = t ++ ":" ++ y ↔ s = t ∧ x = y := by
  rw [← String.toList_inj, toList_append_colon, toList_append_colon, append_cons_eq_iff, String.toList_inj,
    String.toList_inj]
  refine or_iff_left ?_
  rintro (⟨mid, -, hmid⟩ | ⟨mid, -, hmid⟩)
  · exact hx (hmid ▸ by simp)
  · exact hy (hmid ▸ by simp)

/-- What stands behind the last colon of one text has no dot, what stands behind a dot of the other no colon. -/
theorem append_dot_ne_append_colon (hx : ':' ∉ x.toList) (hy : '.' ∉ y.toList) : s ++ "." ++ x ≠ t ++ ":" ++ y := by
  intro h
  rw [← String.toList_inj, toList_append_dot, toList_append_colon] at h
  rcases List.append_eq_append_iff.1 h with ⟨mid, -, hmid⟩ | ⟨mid, -, hmid⟩
  · have hcolon : ':' ∈ '.' :: x.toList := hmid ▸ by simp
    simp [hx] at hcolon
  · have hdot : '.' ∈ ':' :: y.toList := hmid ▸ by simp
    simp [hy] at hdot

/-- Texts cut at a dot are equal when the parts are, or when the dot of one stands within the beginning of the other. -/
theorem append_dot_eq_iff : s ++ "." ++ x = t ++ "." ++ y ↔ (s = t ∧ x = y) ∨
    (∃ u, t = s ++ "." ++ u ∧ x = u ++ "." ++ y) ∨ ∃ u, s = t ++ "." ++ u ∧ y = u ++ "." ++ x := by
  constructor
  · intro h
    rw [← String.toList_inj, toList_append_dot, toList_append_dot, append_cons_eq_iff] at h
    rcases h with ⟨hs, hx⟩ | ⟨mid, ht, hx⟩ | ⟨mid, hs, hy⟩
    · exact Or.inl ⟨String.toList_inj.1 hs, String.toList_inj.1 hx⟩
    · refine Or.inr (Or.inl ⟨String.ofList mid, ?_, ?_⟩)
      all_goals
        rw [← String.toList_inj, toList_append_dot, String.toList_ofList]
        assumption
    · refine Or.inr (Or.inr ⟨String.ofList mid, ?_, ?_⟩)
      all_goals
        rw [← String.toList_inj, toList_append_dot, String.toList_ofList]
        assumption
  · rintro (⟨rfl, rfl⟩ | ⟨u, rfl, rfl⟩ | ⟨u, rfl, rfl⟩)
    · rfl
    · simp only [String.append_assoc]
    · simp only [String.append_assoc]

/-! ## Written numbers -/

theorem isDigit_of_mem_repr {n : Nat} {c : Char} (h : c ∈ n.repr.toList) : c.isDigit = true := by
  rw [Nat.toList_repr] at h
  exact Nat.isDigit_of_mem_toDigits (by decide) (by decide) h

/-- A number is read back from its digits. -/
theorem natRepr_inj {m n : Nat} : m.repr = n.repr ↔ m = n := by
  refine ⟨fun h => ?_, fun h => h ▸ rfl⟩
  have hdigits := congrArg (fun s : String => Nat.ofDigitChars 10 s.toList 0) h
  simpa using hdigits

theorem intRepr_inj {i j : Int} : i.repr = j.repr ↔ i = j := by
  have hsign : ∀ m n : Nat, m.repr ≠ "-" ++ n.repr := by
    intro m n h
    have hmem : '-' ∈ m.repr.toList := by simp [h]
    exact absurd (isDigit_of_mem_repr hmem) (by decide)
  refine ⟨fun h => ?_, fun h => h ▸ rfl⟩
  rw [Int.repr_eq_if, Int.repr_eq_if] at h
  split at h <;> split at h
  · have := natRepr_inj.1 h
    omega
  · exact absurd h (hsign _ _)
  · exact absurd h.symm (hsign _ _)
  · have := natRepr_inj.1 ((String.append_right_inj "-").1 h)
    omega

theorem colon_not_mem_repr (i : Int) : ':' ∉ i.repr.toList := by
  have hdigits : ∀ n : Nat, ':' ∉ n.repr.toList := fun n h => absurd (isDigit_of_mem_repr h) (by decide)
  rw [Int.repr_eq_if]
  split
  · exact hdigits _
  · rw [String.toList_append, List.mem_append, not_or]
    exact ⟨by decide, hdigits _⟩

end Cutting

/-! ## Places in a file -/

namespace SourceFile

variable {f : SourceFile} {p q : Pos}

theorem holds_of_fileAt? {files : List SourceFile} (h : fileAt? files p = some f) : f.holds p = true := by
  unfold fileAt? at h
  split at h
  · cases h
  · simpa using List.find?_some h

theorem lineAt_ne_zero (h0 : 0 ∈ f.lineStarts) (offset : Nat) : f.lineAt offset ≠ 0 :=
  Nat.ne_of_gt (List.countP_pos_iff.2 ⟨0, h0, by simp⟩)

/-- When lines start with the file, a position has a line, and its column is counted from one of the line starts. -/
theorem place_eq (h0 : 0 ∈ f.lineStarts) (p : Pos) :
    ∃ start, (f.lineStarts.filter (· ≤ f.offset p)).getLast? = some start ∧
      f.place p = ⟨f.name, f.line p, f.offset p - start + 1⟩ := by
  have hne : f.lineStarts.filter (· ≤ f.offset p) ≠ [] :=
    List.ne_nil_of_mem (List.mem_filter.2 ⟨h0, by simp⟩)
  refine ⟨_, List.getLast?_eq_some_getLast hne, ?_⟩
  unfold place
  rw [List.getLast?_eq_some_getLast hne]

/-- Positions on one line have the same line starts before them. -/
theorem filter_eq_of_line_eq (hline : f.line p = f.line q) :
    f.lineStarts.filter (· ≤ f.offset p) = f.lineStarts.filter (· ≤ f.offset q) := by
  unfold line lineAt at hline
  rw [List.countP_eq_length_filter, List.countP_eq_length_filter] at hline
  rcases Nat.le_total (f.offset p) (f.offset q) with hle | hle
  · refine (List.monotone_filter_right _ fun n hn => ?_).eq_of_length hline
    simp only [decide_eq_true_iff] at hn ⊢
    exact Nat.le_trans hn hle
  · refine ((List.monotone_filter_right _ fun n hn => ?_).eq_of_length hline.symm).symm
    simp only [decide_eq_true_iff] at hn ⊢
    exact Nat.le_trans hn hle

theorem cast_offset (hp : f.holds p = true) : (f.offset p : Int) = p - f.base := by
  unfold holds at hp
  rw [Bool.and_eq_true, decide_eq_true_iff] at hp
  exact Int.toNat_of_nonneg (Int.sub_nonneg.2 hp.1)

theorem offset_inj (hp : f.holds p = true) (hq : f.holds q = true) (h : f.offset p = f.offset q) : p = q := by
  have hcast := cast_offset hp
  rw [h, cast_offset hq] at hcast
  exact ((Int.sub_left_inj _).1 hcast).symm

/-- As the file itself counts, line and column tell its positions. -/
theorem place_inj (h0 : 0 ∈ f.lineStarts) (hp : f.holds p = true) (hq : f.holds q = true)
    (hline : f.line p = f.line q) (hcolumn : (f.place p).column = (f.place q).column) : p = q := by
  obtain ⟨start, hs, hlp⟩ := place_eq h0 p
  obtain ⟨start', hs', hlq⟩ := place_eq h0 q
  rw [filter_eq_of_line_eq hline, hs'] at hs
  cases hs
  rw [hlp, hlq] at hcolumn
  refine offset_inj hp hq (Int.ofNat_inj.1 ?_)
  simpa using hcolumn

/-- Whether what line directives say of two positions of a file may coincide: they stand behind different directives, or
behind one that gives no column. -/
def Shifted (f : SourceFile) (p q : Pos) : Prop :=
  f.directive? p ≠ f.directive? q ∨ ∃ d, f.directive? p = some d ∧ d.column = none

theorem locate_of_directive (h0 : 0 ∈ f.lineStarts) {d : LineDirective} {column : Int} (hd : f.directive? p = some d)
    (hcolumn : d.column = some column) : f.locate p = ⟨d.file, d.line + (f.line p - f.lineAt d.offset),
      if f.line p = f.lineAt d.offset then column + (f.offset p - d.offset) else (f.place p).column⟩ := by
  unfold locate
  simp only [hd, if_neg (lineAt_ne_zero h0 _), hcolumn, Option.elim_some]

/-- Line and column tell the positions of a file, except where line directives shift them. -/
theorem line_column_inj (h0 : 0 ∈ f.lineStarts) (hp : f.holds p = true) (hq : f.holds q = true)
    (hshift : ¬ f.Shifted p q) (hline : (f.locate p).line = (f.locate q).line)
    (hcolumn : (f.locate p).column = (f.locate q).column) : p = q := by
  obtain ⟨hsame, hknown⟩ := not_or.1 hshift
  rw [Classical.not_not] at hsame
  cases hd : f.directive? p with
  | none =>
    have hlp : f.locate p = f.place p := by simp only [locate, hd]
    have hlq : f.locate q = f.place q := by simp only [locate, ← hsame, hd]
    obtain ⟨_, -, hp'⟩ := place_eq h0 p
    obtain ⟨_, -, hq'⟩ := place_eq h0 q
    rw [hlp, hlq] at hline hcolumn
    rw [hp', hq'] at hline
    exact place_inj h0 hp hq (Int.ofNat_inj.1 hline) hcolumn
  | some d =>
    cases hc : d.column with
    | none => exact absurd ⟨d, hd, hc⟩ hknown
    | some column =>
      rw [locate_of_directive h0 hd hc, locate_of_directive h0 (hsame ▸ hd) hc] at hline hcolumn
      have hlines : f.line p = f.line q := by
        dsimp only at hline
        omega
      -- on the line of the directive columns go on from its own, further down they are the file's
      by_cases hfirst : f.line p = f.lineAt d.offset
      · simp only [← hlines, if_pos hfirst] at hcolumn
        exact offset_inj hp hq (by omega)
      · simp only [← hlines, if_neg hfirst] at hcolumn
        exact place_inj h0 hp hq hlines hcolumn

end SourceFile

/-! ## Keys -/

namespace Variable

variable {files : List SourceFile} {a b v : Variable}

/-- What the key of a variable relies on: it belongs to a package and is declared in one of the files, whose first line
starts with it, its name has no dots and colons, and its export path has no colons. -/
structure Keyed (files : List SourceFile) (v : Variable) : Prop where
  package : v.package.isSome = true
  file : ∃ f, fileAt? files v.pos = some f ∧ 0 ∈ f.lineStarts
  name : '.' ∉ v.name.toList ∧ ':' ∉ v.name.toList
  path : ∀ path, v.path = some path → ':' ∉ path.toList

/-- The ways in which two variables come to share a key. -/
inductive Clash (files : List SourceFile) (a b : Variable) : Prop where
  /-- Neither is exported, and they are declared at one position by one name, like the variables of the clauses of a
  type switch. -/
  | position (ha : a.path = none) (hb : b.path = none) (hpackage : a.packagePath = b.packagePath)
      (hpos : a.pos = b.pos) (hname : a.name = b.name)
  /-- Neither is exported, and they are declared by one name at what reads as one line and column of files that import
  path and file name do not tell apart: in two files, or in one whose line directives shift their places. -/
  | place {f g : SourceFile} (ha : a.path = none) (hb : b.path = none) (hf : fileAt? files a.pos = some f)
      (hg : fileAt? files b.pos = some g) (hapart : f = g → a.pos ≠ b.pos ∧ f.Shifted a.pos b.pos)
      (hfile : a.packagePath ++ ":" ++ Path.baseName (f.locate a.pos).file =
        b.packagePath ++ ":" ++ Path.baseName (g.locate b.pos).file)
      (hline : (f.locate a.pos).line = (g.locate b.pos).line)
      (hcolumn : (f.locate a.pos).column = (g.locate b.pos).column) (hname : a.name = b.name)
  /-- They have one export path in two packages of one import path. -/
  | path (ha : a.path.isSome = true) (hpath : a.path = b.path) (hpackage : a.packagePath = b.packagePath)
      (hne : a.package ≠ b.package)
  /-- The import path of the second continues that of the first with what the export path of the first starts with. -/
  | inner {start path : String} (ha : a.path = some (start ++ "." ++ path)) (hb : b.path = some path)
      (hpackage : b.packagePath = a.packagePath ++ "." ++ start)
  /-- The same, the other way round. -/
  | outer {start path : String} (ha : a.path = some path) (hb : b.path = some (start ++ "." ++ path))
      (hpackage : a.packagePath = b.packagePath ++ "." ++ start)

theorem elementKey_of_path (files : Option (List SourceFile)) {path : String} (hp : v.package.isSome = true)
    (h : v.path = some path) : elementKey files v = v.packagePath ++ "." ++ path := by
  obtain ⟨package, hp⟩ := Option.isSome_iff_exists.1 hp
  unfold elementKey packagePath
  rw [hp, h]
  rfl

theorem elementKey_of_file {f : SourceFile} (hp : v.package.isSome = true) (h : v.path = none)
    (hf : fileAt? files v.pos = some f) : elementKey (some files) v = v.packagePath ++ ":" ++
      Path.baseName (f.locate v.pos).file ++ ":" ++ (f.locate v.pos).line.repr ++ ":" ++
        (f.locate v.pos).column.repr ++ ":" ++ v.name := by
  obtain ⟨package, hp⟩ := Option.isSome_iff_exists.1 hp
  have hlocated : v.located = true := by
    unfold located
    unfold fileAt? at hf
    split at hf
    · cases hf
    · rename_i hpos
      exact decide_eq_true hpos
  unfold elementKey packagePath NilFlow.locate
  simp only [hp, h, hf, hlocated]
  rfl

theorem elementKey_eq_iff_of_file {f g : SourceFile} (ha : a.Keyed files) (hb : b.Keyed files) (hpa : a.path = none)
    (hpb : b.path = none) (hf : fileAt? files a.pos = some f) (hg : fileAt? files b.pos = some g) :
    elementKey (some files) a = elementKey (some files) b ↔
      a.packagePath ++ ":" ++ Path.baseName (f.locate a.pos).file =
          b.packagePath ++ ":" ++ Path.baseName (g.locate b.pos).file ∧
        (f.locate a.pos).line = (g.locate b.pos).line ∧ (f.locate a.pos).column = (g.locate b.pos).column ∧
        a.name = b.name := by
  rw [elementKey_of_file ha.package hpa hf, elementKey_of_file hb.package hpb hg,
    append_colon_inj ha.name.2 hb.name.2, append_colon_inj (colon_not_mem_repr _) (colon_not_mem_repr _),
    append_colon_inj (colon_not_mem_repr _) (colon_not_mem_repr _), intRepr_inj, intRepr_inj, and_assoc, and_assoc]

/-- Variables that clash have one key. -/
theorem Clash.elementKey_eq (ha : a.Keyed files) (hb : b.Keyed files) (h : a.Clash files b) :
    elementKey (some files) a = elementKey (some files) b := by
  obtain ⟨f, hf, -⟩ := ha.file
  obtain ⟨g, hg, -⟩ := hb.file
  cases h with
  | position hpa hpb hpackage hpos hname =>
    rw [← hpos, hf] at hg
    cases hg
    rw [elementKey_eq_iff_of_file ha hb hpa hpb hf (hpos ▸ hf), hpackage, hpos]
    exact ⟨rfl, rfl, rfl, hname⟩
  | place hpa hpb hf hg _ hfile hline hcolumn hname =>
    exact (elementKey_eq_iff_of_file ha hb hpa hpb hf hg).2 ⟨hfile, hline, hcolumn, hname⟩
  | path hpa hpath hpackage _ =>
    obtain ⟨path, hpa⟩ := Option.isSome_iff_exists.1 hpa
    rw [elementKey_of_path _ ha.package hpa, elementKey_of_path _ hb.package (hpath ▸ hpa), hpackage]
  | inner hpa hpb hpackage =>
    rw [elementKey_of_path _ ha.package hpa, elementKey_of_path _ hb.package hpb, append_dot_eq_iff]
    exact Or.inr (Or.inl ⟨_, hpackage, rfl⟩)
  | outer hpa hpb hpackage =>
    rw [elementKey_of_path _ ha.package hpa, elementKey_of_path _ hb.package hpb, append_dot_eq_iff]
    exact Or.inr (Or.inr ⟨_, hpackage, rfl⟩)

theorem clash_of_places (ha : a.Keyed files) (hb : b.Keyed files) (hpa : a.path = none) (hpb : b.path = none)
    (h : elementKey (some files) a = elementKey (some files) b) : a.Clash files b := by
  obtain ⟨f, hf, h0⟩ := ha.file
  obtain ⟨g, hg, -⟩ := hb.file
  obtain ⟨hfile, hline, hcolumn, hname⟩ := (elementKey_eq_iff_of_file ha hb hpa hpb hf hg).1 h
  by_cases hpos : a.pos = b.pos
  · rw [← hpos, hf] at hg
    cases hg
    rw [hpos, String.append_left_inj, String.append_left_inj] at hfile
    exact .position hpa hpb hfile hpos hname
  · refine .place hpa hpb hf hg (fun hfg => ⟨hpos, ?_⟩) hfile hline hcolumn hname
    subst hfg
    by_contra hshift
    exact hpos (SourceFile.line_column_inj h0 (SourceFile.holds_of_fileAt? hf) (SourceFile.holds_of_fileAt? hg)
      hshift hline hcolumn)

/-- Variables with export paths that share a key clash by their import paths, as long as these paths tell them apart
within one package. -/
theorem clash_of_paths (ha : a.Keyed files) (hb : b.Keyed files) {path path' : String} (hpa : a.path = some path)
    (hpb : b.path = some path') (hne : a.package = b.package → a.path ≠ b.path)
    (h : elementKey (some files) a = elementKey (some files) b) : a.Clash files b := by
  rw [elementKey_of_path _ ha.package hpa, elementKey_of_path _ hb.package hpb, append_dot_eq_iff] at h
  rcases h with ⟨hpackage, rfl⟩ | ⟨start, hpackage, rfl⟩ | ⟨start, hpackage, rfl⟩
  · exact .path (by simp [hpa]) (hpa.trans hpb.symm) hpackage fun heq => hne heq (hpa.trans hpb.symm)
  · exact .inner hpa hpb hpackage
  · exact .outer hpa hpb hpackage

theorem elementKey_ne (ha : a.Keyed files) (hb : b.Keyed files) {path : String} (hpa : a.path = some path)
    (hpb : b.path = none) : elementKey (some files) a ≠ elementKey (some files) b := by
  obtain ⟨g, hg, -⟩ := hb.file
  rw [elementKey_of_file hb.package hpb hg, elementKey_of_path _ ha.package hpa]
  exact append_dot_ne_append_colon (ha.path path hpa) hb.name.1

/-- Two variables whose export paths tell them apart within one package share a key exactly when they clash. -/
theorem elementKey_eq_iff (ha : a.Keyed files) (hb : b.Keyed files)
    (hne : a.package = b.package → a.path = b.path → a.path = none) :
    elementKey (some files) a = elementKey (some files) b ↔ a.Clash files b := by
  refine ⟨fun h => ?_, Clash.elementKey_eq ha hb⟩
  cases hpa : a.path with
  | none =>
    cases hpb : b.path with
    | none => exact clash_of_places ha hb hpa hpb h
    | some path => exact absurd h.symm (elementKey_ne hb ha hpb hpa)
  | some path =>
    cases hpb : b.path with
    | none => exact absurd h (elementKey_ne ha hb hpa hpb)
    | some path' =>
      refine clash_of_paths ha hb hpa hpb (fun heq hpath => ?_) h
      have hnone := hne heq hpath
      rw [hpa] at hnone
      cases hnone

-- two local variables `x` of `m/p`, each on the line behind a comment `//line a.go:1`
example : let file : SourceFile := ⟨"p.go", 0, 1, 90, [0, 10, 21, 35, 45, 59], false, [], none,
      [⟨35, "a.go", 1, none⟩, ⟨59, "a.go", 1, none⟩]⟩
    elementKey (some [file]) ⟨0, "x", 40, some ⟨0, "m/p"⟩, .var, none⟩ =
      elementKey (some [file]) ⟨1, "x", 64, some ⟨0, "m/p"⟩, .var, none⟩ := by decide +kernel

-- the first field of a struct type `X` in `m/a`, and a variable `UF0` in `m/a.X`
example : elementKey (some []) ⟨0, "F", 40, some ⟨0, "m/a"⟩, .field, some "X.UF0"⟩ =
    elementKey (some []) ⟨1, "UF0", 90, some ⟨1, "m/a.X"⟩, .var, some "UF0"⟩ := by decide

end Variable

/-! ## Texts of groups -/

theorem map_eq_map_iff_forall₂ {α β : Type} {key : α → β} {r : α → α → Prop} : ∀ {as bs : List α},
    (∀ a ∈ as, ∀ b ∈ bs, (key a = key b ↔ r a b)) → (as.map key = bs.map key ↔ List.Forall₂ r as bs)
  | [], [], _ => by simp
  | [], _ :: _, _ => by simp
  | _ :: _, [], _ => by simp
  | a :: as, b :: bs, h => by
    rw [List.map_cons, List.map_cons, List.cons.injEq, List.forall₂_cons, h a List.mem_cons_self b List.mem_cons_self,
      map_eq_map_iff_forall₂ fun a ha b hb => h a (List.mem_cons_of_mem _ ha) b (List.mem_cons_of_mem _ hb)]

/-- Keys of one line each are read back from the text that identifies a group. -/
theorem groupKey_eq_iff {files : Option (List SourceFile)} {as bs : List Variable} (ha : as ≠ []) (hb : bs ≠ [])
    (hline : ∀ v ∈ as ++ bs, '\n' ∉ (elementKey files v).toList) :
    groupKey files as = groupKey files bs ↔ as.map (elementKey files) = bs.map (elementKey files) := by
  have hsplit : ∀ {vs : List Variable}, vs ≠ [] → (∀ v ∈ vs, '\n' ∉ (elementKey files v).toList) →
      (groupKey files vs).toList.splitOn '\n' = (vs.map (elementKey files)).map String.toList := by
    intro vs hne hvs
    unfold groupKey
    rw [String.toList_intercalate]
    refine List.splitOn_intercalate '\n' ?_ (by simpa using hne)
    intro l hl
    obtain ⟨key, hkey, rfl⟩ := List.mem_map.1 hl
    obtain ⟨v, hv, rfl⟩ := List.mem_map.1 hkey
    exact hvs v hv
  constructor
  · intro h
    have hlists := hsplit ha fun v hv => hline v (List.mem_append_left _ hv)
    rw [h, hsplit hb fun v hv => hline v (List.mem_append_right _ hv)] at hlists
    exact (List.map_injective_iff.2 fun _ _ => String.toList_inj.1) hlists.symm
  · intro h
    unfold groupKey
    rw [h]

end NilFlow
