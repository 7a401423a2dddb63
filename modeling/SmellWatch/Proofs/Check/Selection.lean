import Mathlib.Data.List.Pairwise
import SmellWatch.Check.Selection
import SmellWatch.Proofs.Path
/-! Which sources are shown under one path.

The files of a check have different paths (`pairwise_of_files?`), but two of them may be shown
under one.  Then they lead to one place (`Disk.locate_of_alike`), the sources are the same
(`eq_of_path_eq`), and one path is the other with a point in front (`pairwise_sources_iff`). -/

namespace SmellWatch

open SmellWatch.Path

namespace Disk

variable {d : Disk} {p q s t : String} {place : Place}

theorem follow_of_isSilent {piece : String} (hdir : d.isDirectory place = true)
    (h : isSilent piece = true) : d.follow place piece = .ok place := by
  unfold follow
  rw [if_pos hdir, if_pos (by simpa [isSilent] using h)]

/-- Pieces in front that stay where they are do not count in a directory. -/
theorem foldlM_dropWhile (hdir : d.isDirectory place = true) (l : List String) :
    (l.dropWhile isSilent).foldlM d.follow place = l.foldlM d.follow place := by
  induction l with
  | nil => rfl
  | cons x l ih =>
    by_cases hx : isSilent x = true
    · rw [List.dropWhile_cons_of_pos hx, ih, List.foldlM_cons, follow_of_isSilent hdir hx]
      rfl
    · rw [List.dropWhile_cons_of_neg hx]

/-- No path leads anywhere from a place that is no directory. -/
theorem foldlM_of_not_isDirectory (hdir : d.isDirectory place = false) {l : List String}
    (hne : l ≠ []) :
    l.foldlM d.follow place =
      .error (if d.isFile place then Fault.notDirectory else .missing) := by
  cases l with
  | nil => exact absurd rfl hne
  | cons x l =>
    rw [List.foldlM_cons]
    unfold follow
    rw [if_neg (by simp [hdir])]
    rfl

/-- Paths that go one way lead from one place to one place. -/
theorem foldlM_split_congr (h : way p = way q) (place : Place) :
    (split p).foldlM d.follow place = (split q).foldlM d.follow place := by
  by_cases hdir : d.isDirectory place = true
  · rw [← foldlM_dropWhile hdir (split p), ← foldlM_dropWhile hdir (split q)]
    exact congrArg (·.foldlM d.follow place) h
  · rw [Bool.not_eq_true] at hdir
    rw [foldlM_of_not_isDirectory hdir (split_ne_nil p),
      foldlM_of_not_isDirectory hdir (split_ne_nil q)]

/-- Paths that are shown alike lead to one place. -/
theorem locate_of_alike (hp : p ≠ "") (hq : q ≠ "") (h : withoutPoint p = withoutPoint q) :
    d.locate p = d.locate q := by
  have habs : isAbsolute p = isAbsolute q := by
    rw [← isAbsolute_withoutPoint p, h, isAbsolute_withoutPoint]
  have hway : way p = way q := by
    rw [← way_withoutPoint p, h, way_withoutPoint]
  have hpe : p.isEmpty = false := by simpa using hp
  have hqe : q.isEmpty = false := by simpa using hq
  unfold locate
  simp only [hpe, hqe, habs, foldlM_split_congr hway]

theorem readText_of_alike (hp : p ≠ "") (hq : q ≠ "") (h : withoutPoint p = withoutPoint q) :
    d.readText p = d.readText q := by
  unfold readText readBytes
  rw [locate_of_alike hp hq h]

theorem ne_empty_of_readText (h : d.readText p = .ok s) : p ≠ "" := by
  rintro rfl
  cases h

end Disk

namespace Selection

variable {env : Environment} {d : Disk} {filter : IncludeFilter} {paths files : List String}
  {p q : String} {s t : Source}

/-! ## Files -/

theorem mem_of_mem_once {l : List String} (h : p ∈ once l) : p ∈ l := by
  induction l using once.induct with
  | case1 =>
    rw [once] at h
    exact h
  | case2 x =>
    rw [once] at h
    exact h
  | case3 x y r hsame ih =>
    rw [once, if_pos hsame] at h
    rcases List.mem_cons.mp (ih h) with rfl | hin
    · exact List.mem_cons_self
    · exact List.mem_cons_of_mem _ (List.mem_cons_of_mem _ hin)
  | case4 x y r hother ih =>
    rw [once, if_neg hother] at h
    rcases List.mem_cons.mp h with rfl | hin
    · exact List.mem_cons_self
    · exact List.mem_cons_of_mem _ (ih hin)

/-- Of paths in their order each is kept once. -/
theorem pairwise_once {l : List String}
    (h : l.Pairwise fun p q => comesBefore (parts p) (parts q) = true) :
    (once l).Pairwise fun p q => parts p ≠ parts q := by
  induction l using once.induct with
  | case1 =>
    rw [once]
    exact .nil
  | case2 x =>
    rw [once]
    exact List.pairwise_singleton _ _
  | case3 x y r hsame ih =>
    rw [once, if_pos hsame]
    exact ih (h.sublist (List.Sublist.cons_cons x (List.sublist_cons_self y r)))
  | case4 x y r hother ih =>
    obtain ⟨hx, hrest⟩ := List.pairwise_cons.mp h
    rw [once, if_neg hother]
    refine List.pairwise_cons.mpr ⟨fun z hz hsame => ?_, ih hrest⟩
    -- what is the same as the first one is no later than the second one, which it follows
    have hyz : comesBefore (parts y) (parts z) = true := by
      rcases List.mem_cons.mp (mem_of_mem_once hz) with rfl | hin
      · exact comesBefore_refl _
      · exact (List.pairwise_cons.mp hrest).1 z hin
    exact hother (comesBefore_antisymm (hx y List.mem_cons_self) (hsame ▸ hyz))

theorem once_eq_self {l : List String} (h : l.Pairwise fun p q => parts p ≠ parts q) :
    once l = l := by
  induction l using once.induct with
  | case1 => rw [once]
  | case2 x => rw [once]
  | case3 x y r hsame ih =>
    exact absurd hsame ((List.pairwise_cons.mp h).1 y List.mem_cons_self)
  | case4 x y r hother ih => rw [once, if_neg hother, ih (List.pairwise_cons.mp h).2]

/-- What is found in order, and each once, are the files. -/
theorem files?_of_sorted {found : List (List String)}
    (h : paths.mapM (filesAt? (.ofDisk env d) d filter) = some found)
    (hsorted : found.flatten.Pairwise fun p q =>
      comesBefore (parts p) (parts q) = true ∧ parts p ≠ parts q) :
    files? env d filter paths = some found.flatten := by
  have horder : found.flatten.Pairwise fun p q => comesBefore (parts p) (parts q) = true :=
    hsorted.imp And.left
  show (paths.mapM (filesAt? (.ofDisk env d) d filter)).bind
    (fun found => some (once (found.flatten.mergeSort _))) = _
  rw [h]
  show some (once (found.flatten.mergeSort _)) = _
  rw [List.mergeSort_of_pairwise horder, once_eq_self (hsorted.imp And.right)]

theorem files?_eq_some (h : files? env d filter paths = some files) :
    ∃ found : List String, files = once (found.mergeSort fun p q =>
      comesBefore (parts p) (parts q)) := by
  obtain ⟨found, -, hfiles⟩ := Option.bind_eq_some_iff.mp h
  exact ⟨found.flatten, (Option.some.inj hfiles).symm⟩

/-- The files of a check have different paths. -/
theorem pairwise_of_files? (h : files? env d filter paths = some files) :
    files.Pairwise fun p q => parts p ≠ parts q := by
  obtain ⟨found, rfl⟩ := files?_eq_some h
  have hsorted : (found.mergeSort fun p q => comesBefore (parts p) (parts q)).Pairwise
      fun p q => comesBefore (parts p) (parts q) = true :=
    List.pairwise_mergeSort
      (fun x y z (hxy : comesBefore (parts x) (parts y) = true) hyz => comesBefore_trans hxy hyz)
      (fun x y => comesBefore_total (parts x) (parts y)) found
  exact pairwise_once hsorted

/-! ## Sources -/

theorem source_eq_some :
    (d.readText p).toOption.map (fun content => (⟨withoutPoint p, content⟩ : Source)) = some s ↔
      d.readText p = .ok s.content ∧ withoutPoint p = s.path := by
  obtain ⟨path, content⟩ := s
  cases d.readText p with
  | error e => simp [Except.toOption]
  | ok text => simp [Except.toOption, and_comm]

theorem mem_sources :
    s ∈ sources d files ↔
      ∃ p ∈ files, d.readText p = .ok s.content ∧ withoutPoint p = s.path := by
  unfold sources
  simp only [List.mem_filterMap, source_eq_some]

/-- Files that are shown alike hold one text. -/
theorem eq_of_readText {text other : String} (hp : d.readText p = .ok text)
    (hq : d.readText q = .ok other) (h : withoutPoint p = withoutPoint q) : text = other := by
  have hsame := Disk.readText_of_alike (d := d) (Disk.ne_empty_of_readText hp)
    (Disk.ne_empty_of_readText hq) h
  rw [hp, hq] at hsame
  exact Except.ok.inj hsame

/-- Sources that are shown under one path are the same. -/
theorem eq_of_path_eq (hs : s ∈ sources d files) (ht : t ∈ sources d files)
    (h : s.path = t.path) : s = t := by
  obtain ⟨p, -, hp, hpath⟩ := mem_sources.mp hs
  obtain ⟨q, -, hq, hqpath⟩ := mem_sources.mp ht
  obtain ⟨path, content⟩ := s
  obtain ⟨_, _⟩ := t
  obtain rfl : path = _ := h
  obtain rfl : content = _ := eq_of_readText hp hq (hpath.trans hqpath.symm)
  rfl

/-- If the second file is shown as the first one is, its source has the property. -/
def ShownAlike (d : Disk) (P : Source → Prop) (p q : String) : Prop :=
  withoutPoint p = withoutPoint q →
    ∀ text other, d.readText p = .ok text → d.readText q = .ok other → P ⟨withoutPoint q, other⟩

/-- Which of the two files comes first does not matter, for they have one source. -/
theorem ShownAlike.symm {P : Source → Prop} (h : ShownAlike d P p q) : ShownAlike d P q p := by
  intro halike text other hq hp
  rw [← halike, ← eq_of_readText hq hp halike]
  exact h halike.symm other text hp hq

theorem pairwise_sources (P : Source → Prop) :
    (sources d files).Pairwise (fun s t => s.path = t.path → P t) ↔
      files.Pairwise (ShownAlike d P) := by
  unfold sources
  rw [List.pairwise_filterMap]
  refine List.Pairwise.iff fun p q => ?_
  simp only [source_eq_some]
  constructor
  · intro hall halike text other hp hq
    exact hall ⟨_, text⟩ ⟨hp, rfl⟩ ⟨_, other⟩ ⟨hq, rfl⟩ halike
  · rintro hall ⟨_, text⟩ ⟨hp, rfl⟩ ⟨_, other⟩ ⟨hq, rfl⟩ halike
    exact hall halike text other hp hq

/-- Of the sources of a check, those that come behind one with their path are such whose files
are among those of the check with a point in front, too. -/
theorem pairwise_sources_iff (h : files? env d filter paths = some files) (P : Source → Prop) :
    (sources d files).Pairwise (fun s t => s.path = t.path → P t) ↔
      ∀ p ∈ files, ∀ q ∈ files, HasPoint p → withoutPoint p = q →
        ∀ text, d.readText q = .ok text → P ⟨q, text⟩ := by
  have hdistinct := pairwise_of_files? h
  have hsymm : Std.Symm (ShownAlike d P) := ⟨fun _ _ => ShownAlike.symm⟩
  rw [pairwise_sources]
  constructor
  · intro hall p hp q hq hpoint hpq text htext
    have hplain : ¬ HasPoint q := hpq ▸ not_hasPoint_withoutPoint p
    have hsame : withoutPoint q = q := withoutPoint_of_not_hasPoint hplain
    have halike : withoutPoint p = withoutPoint q := hpq.trans hsame.symm
    have hne : p ≠ q := fun heq => hplain (heq ▸ hpoint)
    have hread : d.readText p = .ok text := by
      rw [Disk.readText_of_alike (ne_empty_of_hasPoint hpoint)
        (Disk.ne_empty_of_readText htext) halike, htext]
    have hkept := hall.forall hp hq hne halike text text hread htext
    rwa [hsame] at hkept
  · intro hall
    refine hdistinct.imp_of_mem fun {p q} hp hq hne halike text other htext hother => ?_
    rcases alike_of_parts_ne hne halike with ⟨hpoint, hpq⟩ | ⟨hpoint, hqp⟩
    · rw [halike.symm.trans hpq]
      exact hall p hp q hq hpoint hpq other hother
    · rw [hqp, ← eq_of_readText htext hother halike]
      exact hall q hq p hp hpoint hqp text htext

end Selection

end SmellWatch
