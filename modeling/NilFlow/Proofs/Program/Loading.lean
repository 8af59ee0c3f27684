import Mathlib.Data.List.Forall2
import Mathlib.Data.List.Infix
import NilFlow.Program.Loading

/-!
# What lies in the standard library

* `Path.IsName`: a component that names something; `Path.isName_of_mem_parts` says that an absolute path is made of
  names.
* `Path.Within`: a path is another one or lies below it.
* `Path.relative?_of_within`, `Path.climbs_of_not_within`: the way to a path leads down exactly when it lies within.
* `inLibrary_iff`: which files count as part of the standard library.
* `Program.readOnly_ofLoaded`: which packages without a module are read-only in a loaded program.
-/

namespace NilFlow

/-! ## Paths in their simplest form -/

namespace Path

/-- A text is an absolute path. -/
def Absolute (s : String) : Prop := s.toList.head? = some '/'

instance (s : String) : Decidable (Absolute s) := inferInstanceAs (Decidable (_ = _))

/-- A component names something: it is not empty, and neither a dot nor two. -/
def IsName (part : String) : Prop := part ≠ "" ∧ part ≠ "." ∧ part ≠ ".."

theorem rooted_ofText {s : String} : (ofText s).rooted = true ↔ Absolute s := decide_eq_true_iff

theorem isName_push {done : List String} (h : ∀ d ∈ done, IsName d) (part : String) :
    ∀ d ∈ push true done part, IsName d := by
  unfold push
  by_cases hskip : part.isEmpty || part = "."
  · rw [if_pos hskip]
    exact h
  rw [if_neg hskip]
  by_cases hup : part = ".."
  · rw [if_pos hup]
    cases done with
    | nil => simp
    | cons d rest =>
      simp only [if_neg (h d List.mem_cons_self).2.2]
      exact fun x hx => h x (List.mem_cons_of_mem d hx)
  · rw [if_neg hup]
    rw [Bool.or_eq_true, String.isEmpty_iff, decide_eq_true_iff, not_or] at hskip
    intro d hd
    rcases List.mem_cons.1 hd with rfl | hd
    · exact ⟨hskip.1, hskip.2, hup⟩
    · exact h d hd

theorem isName_foldl_push : ∀ (parts : List String) {done : List String}, (∀ d ∈ done, IsName d) →
    ∀ d ∈ parts.foldl (push true) done, IsName d
  | [], _, h => h
  | part :: parts, _, h => isName_foldl_push parts (isName_push h part)

theorem isName_of_mem_parts {s : String} (hs : Absolute s) : ∀ part ∈ (ofText s).parts, IsName part := by
  intro part hpart
  have hrooted : (ofText s).parts = ((components s).foldl (push true) []).reverse := by
    unfold ofText
    simp only [show s.toList.head? = some '/' from hs, decide_true]
  rw [hrooted, List.mem_reverse] at hpart
  exact isName_foldl_push (components s) (by simp) part hpart

/-! ## The way from one path to another -/

/-- What remains behind the common beginning: both lists go on differently, or one of them ends. -/
theorem afterCommon_spec : ∀ (as bs : List String), ∃ common, as = common ++ (afterCommon as bs).1 ∧
    bs = common ++ (afterCommon as bs).2 ∧
    ∀ a ∈ (afterCommon as bs).1.head?, ∀ b ∈ (afterCommon as bs).2.head?, a ≠ b
  | [], bs => ⟨[], by simp [afterCommon]⟩
  | a :: as, [] => ⟨[], by simp [afterCommon]⟩
  | a :: as, b :: bs => by
    unfold afterCommon
    split_ifs with hab
    · obtain ⟨common, has, hbs, hne⟩ := afterCommon_spec as bs
      exact ⟨a :: common, congrArg (a :: ·) has, hab ▸ congrArg (a :: ·) hbs, hne⟩
    · exact ⟨[], by simpa using hab⟩

theorem afterCommon_append : ∀ (as rest : List String), afterCommon as (as ++ rest) = ([], rest)
  | [], rest => by cases rest <;> rfl
  | a :: as, rest => by
    rw [List.cons_append, afterCommon, if_pos rfl]
    exact afterCommon_append as rest

/-- A path is the other one or lies below it. -/
def Within (base p : Path) : Prop := p.rooted = base.rooted ∧ base.parts <+: p.parts

instance (base p : Path) : Decidable (Within base p) := inferInstanceAs (Decidable (_ ∧ _))

/-- A text starts with two dots. -/
def Climbs (way : String) : Prop := ['.', '.'] <+: way.toList

instance (way : String) : Decidable (Climbs way) := inferInstanceAs (Decidable (_ <+: _))

theorem toList_intercalate_cons (a : String) (rest : List String) :
    ∃ tail, ("/".intercalate (a :: rest)).toList = a.toList ++ tail ∧ tail.head? ≠ some '.' := by
  rw [String.toList_intercalate, List.map_cons]
  cases rest with
  | nil => exact ⟨[], by simp, by simp⟩
  | cons b rest =>
    rw [List.map_cons, List.intercalate_cons_cons]
    exact ⟨_, List.append_assoc .., by simp⟩

/-- The written way climbs when its first component starts with two dots. -/
theorem climbs_intercalate_cons {a : String} (ha : a ≠ "") (rest : List String) :
    Climbs ("/".intercalate (a :: rest)) ↔ Climbs a := by
  obtain ⟨tail, htail, hdot⟩ := toList_intercalate_cons a rest
  unfold Climbs
  rw [htail]
  match hl : a.toList with
  | [] => exact absurd (String.toList_eq_nil_iff.1 hl) ha
  | [x] =>
    cases tail with
    | nil => simp
    | cons t tail =>
      have ht : '.' ≠ t := fun ht => hdot (by rw [← ht]; rfl)
      simp [List.cons_prefix_cons, ht]
  | x :: y :: l => simp [List.cons_prefix_cons]

/-- The way from an absolute path to another is what leads up from where they part, and then down. -/
theorem relative?_eq {base target : Path} (hb : base.rooted = true) (ht : target.rooted = true) (hne : base ≠ target) :
    base.relative? target = match afterCommon base.parts target.parts with
      | (".." :: _, _ :: _) => none
      | (up, down) => some ("/".intercalate (up.map (fun _ => "..") ++ down)) := by
  have hgoal : (if target.parts.isEmpty && !target.rooted then ["."] else target.parts) = target.parts :=
    if_neg (by simp [ht])
  unfold relative?
  rw [if_neg hne, if_neg (by simp [hb, ht])]
  exact congrArg (fun goal => match afterCommon base.parts goal with
    | (".." :: _, _ :: _) => none
    | (up, down) => some ("/".intercalate (up.map (fun _ => "..") ++ down))) hgoal

/-- The way to an absolute path leads up, unless it lies within. -/
theorem climbs_of_not_within {base target : Path} (hb : base.rooted = true) (h : ¬ Within base target) :
    ∀ way ∈ base.relative? target, Climbs way := by
  intro way hway
  have hne : base ≠ target := by
    rintro rfl
    exact h ⟨rfl, List.prefix_refl _⟩
  by_cases ht : target.rooted = true
  · rw [relative?_eq hb ht hne] at hway
    obtain ⟨common, hbase, htarget, -⟩ := afterCommon_spec base.parts target.parts
    split at hway
    · cases hway
    · rename_i up down _ hafter
      rw [hafter] at hbase htarget
      cases hway
      cases up with
      | nil => exact absurd ⟨ht.trans hb.symm, down, by rw [htarget, hbase]; simp⟩ h
      | cons u up => exact (climbs_intercalate_cons (a := "..") (by decide) _).2 (by decide)
  · unfold relative? at hway
    rw [if_neg hne, if_pos (by simp [hb, ht])] at hway
    cases hway

theorem relative?_of_within {base : Path} (hb : base.rooted = true) (d : String) (rest : List String) :
    base.relative? ⟨true, base.parts ++ d :: rest⟩ = some ("/".intercalate (d :: rest)) := by
  have hne : base ≠ ⟨true, base.parts ++ d :: rest⟩ := by
    intro h
    simpa using congrArg (·.parts.length) h
  rw [relative?_eq hb rfl hne]
  simp only [afterCommon_append]
  rfl

end Path

/-! ## Files of the standard library -/

open NilFlow.Path

variable {library : LibraryRoot} {file : String}

theorem inLibrary_iff_not_climbs (hlibrary : Absolute library) :
    inLibrary library file = true ↔ ∃ way ∈ (ofText library).relative? (ofText file), ¬ Climbs way := by
  have hempty : library.isEmpty = false := by
    rw [String.isEmpty_eq_false_iff]
    rintro rfl
    exact absurd hlibrary (by decide)
  unfold inLibrary
  rw [hempty, if_neg Bool.false_ne_true]
  cases (ofText library).relative? (ofText file) with
  | none => simp
  | some way =>
    simp [Climbs, ← List.isPrefixOf_iff_prefix]

theorem ofText_eq_of_parts (hfile : Absolute file) {parts : List String} (h : (ofText file).parts = parts) :
    ofText file = ⟨true, parts⟩ := by
  rw [← h, ← rooted_ofText.2 hfile]

/-- A file is part of the standard library when its path is absolute and lies within the directory of the library, and
the component below that directory, if there is one, does not start with two dots. -/
theorem inLibrary_iff (hlibrary : Absolute library) : inLibrary library file = true ↔
    Absolute file ∧ Within (ofText library) (ofText file) ∧
      ∀ c rest, (ofText file).parts = (ofText library).parts ++ c :: rest → ¬ Climbs c := by
  have hb : (ofText library).rooted = true := rooted_ofText.2 hlibrary
  -- below the library the way is what the remaining components spell
  have hbelow : ∀ {c rest}, Absolute file → (ofText file).parts = (ofText library).parts ++ c :: rest →
      (ofText library).relative? (ofText file) = some ("/".intercalate (c :: rest)) ∧
        (Climbs ("/".intercalate (c :: rest)) ↔ Climbs c) := by
    intro c rest hfile hparts
    have hname : IsName c := isName_of_mem_parts hfile c (by rw [hparts]; simp)
    exact ⟨ofText_eq_of_parts hfile hparts ▸ relative?_of_within hb c rest, climbs_intercalate_cons hname.1 rest⟩
  rw [inLibrary_iff_not_climbs hlibrary]
  constructor
  · rintro ⟨way, hway, hdown⟩
    have hwithin : Within (ofText library) (ofText file) :=
      by_contra fun hn => hdown (climbs_of_not_within hb hn way hway)
    have hfile : Absolute file := rooted_ofText.1 (hwithin.1.trans hb)
    refine ⟨hfile, hwithin, fun c rest hparts hc => hdown ?_⟩
    obtain ⟨hrelative, hclimbs⟩ := hbelow hfile hparts
    obtain rfl : "/".intercalate (c :: rest) = way := Option.some.inj (hrelative.symm.trans hway)
    exact hclimbs.2 hc
  · rintro ⟨hfile, ⟨-, rest, hparts⟩, hdown⟩
    cases rest with
    | nil =>
      have hself : ofText library = ofText file := by
        rw [ofText_eq_of_parts hfile hparts.symm, List.append_nil, ← hb]
      refine ⟨".", ?_, by decide⟩
      unfold relative?
      rw [if_pos hself]
      rfl
    | cons c rest =>
      obtain ⟨hrelative, hclimbs⟩ := hbelow hfile hparts.symm
      exact ⟨_, hrelative, fun h => hdown c rest hparts.symm (hclimbs.1 h)⟩

/-! ## Packages of a loaded program -/

namespace LoadedPackage

/-- A loaded package comes with types, syntax and files. -/
def usable (l : LoadedPackage) : Bool := l.hasTypes && l.hasSyntax && !l.files.isEmpty

/-- The first file of a package is an absolute path within the directory of the library. -/
def BelowLibrary (library : LibraryRoot) (l : LoadedPackage) : Prop :=
  ∃ file ∈ l.goFiles.head?, Absolute file ∧ Within (ofText library) (ofText file)

/-- The first file of a package lies below a directory of the library whose name starts with two dots. -/
def BelowDots (library : LibraryRoot) (l : LoadedPackage) : Prop :=
  ∃ file ∈ l.goFiles.head?, ∃ c rest, (ofText file).parts = (ofText library).parts ++ c :: rest ∧ Climbs c

theorem outside_iff {l : LoadedPackage} (hlibrary : Absolute library) (hmodule : l.mainModule = none) :
    l.outside library = true ↔ l.BelowLibrary library ∧ ¬ l.BelowDots library := by
  unfold outside BelowLibrary BelowDots
  rw [hmodule]
  cases l.goFiles.head? with
  | none => simp
  | some file =>
    simp only [Option.any_some, inLibrary_iff hlibrary, Option.mem_some, exists_eq_left', and_assoc]
    simp

end LoadedPackage

namespace Program

variable {typing : Typing} {files : List SourceFile} {packages : List LoadedPackage} {generated : Bool}

theorem ofLoaded_eq (husable : ∃ l ∈ packages, l.usable = true) :
    ofLoaded library typing files packages generated false = .ok (.ofPackages typing files
      ((packages.filter (·.usable)).map fun l => l.toPackage (l.outside library)) generated) := by
  obtain ⟨l, hl, hu⟩ := husable
  have hmem : l ∈ packages.filter (·.usable) := List.mem_filter.2 ⟨hl, hu⟩
  have hempty : (packages.filter (·.usable)).isEmpty = false :=
    List.isEmpty_eq_false_iff.2 (List.ne_nil_of_mem hmem)
  have htypes : (packages.filter (·.usable)).any (fun l => !l.hasTypes) = false := by
    rw [List.any_eq_false]
    intro l hl
    have hu := (List.mem_filter.1 hl).2
    unfold LoadedPackage.usable at hu
    simp_all
  have hfilter : packages.filter (fun l => l.hasTypes && l.hasSyntax && !l.files.isEmpty) =
      packages.filter (·.usable) := rfl
  unfold ofLoaded ofChecked
  rw [hfilter]
  simp only [List.isEmpty_map, hempty, List.any_map, Function.comp_def, htypes, Bool.false_eq_true, if_false,
    List.map_map]
  rfl

/-- A program can be loaded as soon as one package is usable. Of its packages, one without a module is read-only exactly
when its first file lies within the standard library, and not in a directory there whose name starts with two dots. -/
theorem readOnly_ofLoaded (hlibrary : Absolute library) (husable : ∃ l ∈ packages, l.usable = true) :
    ∃ p, ofLoaded library typing files packages generated false = .ok p ∧
      List.Forall₂ (fun l q => q = l.toPackage q.readOnly ∧ (l.mainModule = none →
        (q.readOnly = true ↔ l.BelowLibrary library ∧ ¬ l.BelowDots library)))
        (packages.filter (·.usable)) p.packages := by
  refine ⟨_, ofLoaded_eq husable, ?_⟩
  refine List.forall₂_map_right_iff.2 (List.forall₂_same.2 fun l _ => ⟨rfl, fun hmodule => ?_⟩)
  exact l.outside_iff hlibrary hmodule

/-- A loaded package without a module, known by one file. -/
def single (goFile : String) : LoadedPackage := ⟨⟨0, "p"⟩, [default], false, none, [goFile], true, true⟩

/-- A package in the library, written with detours. -/
def detour : LoadedPackage := single "/usr/./lib/go/src/../src/os//file.go"

theorem readOnly_detour : ∃ p, ofLoaded "/usr//lib/go/" default [] [detour] false false = .ok p ∧
    p.packages = [detour.toPackage true] := by
  obtain ⟨p, hload, hpackages⟩ := @readOnly_ofLoaded "/usr//lib/go/" default [] [detour] false (by decide)
    ⟨detour, List.mem_singleton_self _, rfl⟩
  obtain ⟨q, rest, ⟨hq, hiff⟩, hnil, hp⟩ := List.forall₂_cons_left_iff.1 hpackages
  obtain rfl := List.forall₂_nil_left_iff.1 hnil
  have hbelow : detour.BelowLibrary "/usr//lib/go/" := ⟨_, rfl, by decide, by decide⟩
  have hdots : ¬ detour.BelowDots "/usr//lib/go/" := by
    rintro ⟨file, ⟨⟩, c, rest, hparts, hc⟩
    have hfile : (ofText "/usr/./lib/go/src/../src/os//file.go").parts =
        (ofText "/usr//lib/go/").parts ++ ["src", "os", "file.go"] := by decide
    obtain ⟨rfl, -⟩ := List.cons.inj (List.append_cancel_left (hparts.symm.trans hfile))
    exact absurd hc (by decide)
  refine ⟨p, hload, ?_⟩
  rw [hp, hq, (hiff rfl).2 ⟨hbelow, hdots⟩]

/-- A package in a directory of the library whose name starts with two dots. -/
def dotted : LoadedPackage := single "/goroot/..x/a.go"

/-- Such a package is not read-only. -/
theorem dotted_overlooked : ¬ ∀ (library : LibraryRoot) (packages : List LoadedPackage) (p : Program),
    Absolute library → ofLoaded library default [] packages false false = .ok p →
      List.Forall₂ (fun l q => l.mainModule = none → (q.readOnly = true ↔ l.BelowLibrary library))
        (packages.filter (·.usable)) p.packages := by
  intro h
  have hpackages := h "/goroot" [dotted] _ (by decide) (ofLoaded_eq ⟨dotted, List.mem_singleton_self _, rfl⟩)
  obtain ⟨q, rest, hq, -, hp⟩ := List.forall₂_cons_left_iff.1 hpackages
  have hbelow : dotted.BelowLibrary "/goroot" := ⟨_, rfl, by decide, by decide⟩
  have hwritable : dotted.outside "/goroot" = false := by decide
  obtain rfl : dotted.toPackage (dotted.outside "/goroot") = q := (List.cons.inj hp).1
  have hread : dotted.outside "/goroot" = true := (hq rfl).2 hbelow
  rw [hwritable] at hread
  cases hread

end Program

end NilFlow
