import Mathlib.Data.List.DropRight
import LineCalc.Home

/-! What a path with a tilde stands for, said without the way in which it is computed: which part of
it is the name of an account, which home that names, and how the rest is put below the home. -/
namespace LineCalc

inductive Homes.Names (homes : Homes) : String → Option String → Prop where
  | own : homes.Names "" homes.own
  | account (full : name ≠ "") (noSlash : '/' ∉ name.toList) (noNul : '\x00' ∉ name.toList) :
      homes.Names name (homes.ofAccount name)

namespace Home

/-- A home and the tail of a path as one path. The slashes at the end of the home are left out, and
where nothing is left it is the root. -/
inductive Joins : String → String → String → Prop where
  | below {base ending tail : String} (slashes : ∀ c ∈ ending.toList, c = '/')
      (clean : base.toList.getLast? ≠ some '/') (left : base ++ tail ≠ "") :
      Joins (base ++ ending) tail (base ++ tail)
  | root (slashes : ∀ c ∈ ending.toList, c = '/') : Joins ending "" "/"

/-- The path that a path stands for. One whose home is not known stands for itself. -/
inductive Expands (homes : Homes) : String → String → Prop where
  | plain (noTilde : path.toList.head? ≠ some '~') : Expands homes path path
  | home (named : homes.Names name (some home)) (tail : String)
      (apart : ∀ c ∈ tail.toList.head?, c = '/') (joins : Joins home tail path) :
      Expands homes ("~" ++ name ++ tail) path
  | unknown (named : homes.Names name none) (tail : String)
      (apart : ∀ c ∈ tail.toList.head?, c = '/') :
      Expands homes ("~" ++ name ++ tail) ("~" ++ name ++ tail)

theorem rdropWhile_append_of_all {p : α → Bool} {l trail : List α} (drops : ∀ a ∈ trail, p a)
    (clean : ∀ a ∈ l.getLast?, ¬p a) : (l ++ trail).rdropWhile p = l := by
  have tail : ∀ a ∈ trail.reverse, p a := fun a mem => drops a (List.mem_reverse.1 mem)
  have self : l.rdropWhile p = l := by
    refine List.rdropWhile_eq_self_iff.2 fun full => clean _ ?_
    rw [List.getLast?_eq_some_getLast full]
    rfl
  rw [List.rdropWhile, List.reverse_append, List.dropWhile_append_of_pos tail]
  exact self

theorem not_of_mem_getLast?_rdropWhile (p : α → Bool) (l : List α) :
    ∀ a ∈ (l.rdropWhile p).getLast?, ¬p a := by
  intro a last
  have full : l.rdropWhile p ≠ [] := List.ne_nil_of_mem (List.mem_of_getLast? last)
  rw [List.getLast?_eq_some_getLast full] at last
  cases last
  exact List.rdropWhile_last_not p l full

theorem below_eq (home tail : String) :
    below home tail.toList =
      if (home.toList.rdropWhile (· = '/') ++ tail.toList).isEmpty then "/"
      else String.ofList (home.toList.rdropWhile (· = '/')) ++ tail := by
  rw [← String.ofList_toList (s := tail), ← String.ofList_append, String.toList_ofList]
  rfl

theorem joins_below (home tail : String) : Joins home tail (below home tail.toList) := by
  let base := String.ofList (home.toList.rdropWhile (· = '/'))
  let ending := String.ofList (home.toList.rtakeWhile (· = '/'))
  have cut : base ++ ending = home := by
    rw [← String.ofList_append, List.rdropWhile_append_rtakeWhile, String.ofList_toList]
  have slashes : ∀ c ∈ ending.toList, c = '/' := by
    intro c mem
    rw [String.toList_ofList] at mem
    simpa using List.mem_rtakeWhile_imp mem
  rw [below_eq]
  split
  · next empty =>
    obtain ⟨none, noTail⟩ := List.append_eq_nil_iff.1 (List.isEmpty_iff.1 empty)
    have whole : ending = home := by rw [← cut, show base = "" by simp [base, none]]; simp
    rw [show tail = "" by simpa using noTail]
    exact .root (whole ▸ slashes)
  · next full =>
    have clean : base.toList.getLast? ≠ some '/' := by
      intro last
      rw [String.toList_ofList] at last
      exact not_of_mem_getLast?_rdropWhile _ _ _ last (by simp)
    have left : base ++ tail ≠ "" := by
      intro none
      have chars := congrArg String.toList none
      rw [String.toList_append, String.toList_ofList] at chars
      exact full (by rw [chars]; rfl)
    have joins := Joins.below slashes clean left
    rwa [cut] at joins

theorem Joins.below_eq (h : Joins home tail path) : Home.below home tail.toList = path := by
  rw [Home.below_eq]
  cases h with
  | @below base ending _ slashes clean left =>
    have kept : (base ++ ending).toList.rdropWhile (· = '/') = base.toList := by
      rw [String.toList_append]
      refine rdropWhile_append_of_all (by simpa using slashes) fun c last slash => clean ?_
      rw [of_decide_eq_true slash] at last
      exact last
    have full : ¬(base.toList ++ tail.toList).isEmpty := by
      rw [← String.toList_append, List.isEmpty_iff, String.toList_eq_nil_iff]
      exact left
    rw [kept, if_neg full, String.ofList_toList]
  | root slashes =>
    have none : home.toList.rdropWhile (· = '/') = [] :=
      List.rdropWhile_eq_nil_iff.2 (by simpa using slashes)
    rw [none]
    rfl

section Cut

variable {name tail : List Char}

theorem takeWhile_of_apart (noSlash : '/' ∉ name) (apart : ∀ c ∈ tail.head?, c = '/') :
    (name ++ tail).takeWhile (· ≠ '/') = name ∧ (name ++ tail).dropWhile (· ≠ '/') = tail := by
  have solid : ∀ c ∈ name, decide (c ≠ '/') = true := by
    intro c mem
    exact decide_eq_true fun same => noSlash (same ▸ mem)
  rw [List.takeWhile_append_of_pos solid, List.dropWhile_append_of_pos solid]
  cases tail with
  | nil => exact ⟨List.append_nil name, rfl⟩
  | cons c rest =>
    cases apart c rfl
    exact ⟨List.append_nil name, rfl⟩

theorem exists_cut (cs : List Char) :
    ∃ name tail, cs = name ++ tail ∧ '/' ∉ name ∧ ∀ c ∈ tail.head?, c = '/' := by
  refine ⟨cs.takeWhile (· ≠ '/'), cs.dropWhile (· ≠ '/'), List.takeWhile_append_dropWhile.symm,
    fun mem => ?_, fun c first => ?_⟩
  · simpa using List.mem_takeWhile_imp mem
  · have stops := List.head?_dropWhile_not (fun c : Char => decide (c ≠ '/')) cs
    rw [Option.mem_def.1 first] at stops
    simpa using stops

end Cut

theorem expand?_tilde (homes : Homes) {name tail : String} (noSlash : '/' ∉ name.toList)
    (apart : ∀ c ∈ tail.toList.head?, c = '/') :
    expand? homes ("~" ++ name ++ tail) =
      if '\x00' ∈ name.toList then none
      else
        some (((if name = "" then homes.own else homes.ofAccount name).map
          (below · tail.toList)).getD ("~" ++ name ++ tail)) := by
  have chars : ("~" ++ name ++ tail).toList = '~' :: (name.toList ++ tail.toList) := by simp
  obtain ⟨account, rest⟩ := takeWhile_of_apart noSlash apart
  unfold expand?
  rw [chars]
  simp only [account, rest, String.ofList_toList, List.isEmpty_iff, String.toList_eq_nil_iff]

theorem expand?_plain (homes : Homes) {path : String} (noTilde : path.toList.head? ≠ some '~') :
    expand? homes path = some path := by
  unfold expand?
  split
  · next chars => exact absurd (by rw [chars]; rfl) noTilde
  · rfl

theorem expand?_of_names {homes : Homes} {name : String} {home? : Option String}
    (named : homes.Names name home?) {tail : String} (apart : ∀ c ∈ tail.toList.head?, c = '/') :
    expand? homes ("~" ++ name ++ tail) =
      some ((home?.map (below · tail.toList)).getD ("~" ++ name ++ tail)) := by
  cases named with
  | own => rw [expand?_tilde homes (by decide) apart, if_neg (by decide), if_pos rfl]
  | account full noSlash noNul =>
    rw [expand?_tilde homes noSlash apart, if_neg noNul, if_neg full]

/-- A path with a tilde names a home, unless it is refused. -/
theorem exists_names_of_tilde {homes : Homes} {path : String}
    (tilde : path.toList.head? = some '~') (allowed : expand? homes path ≠ none) :
    ∃ name tail home?, path = "~" ++ name ++ tail ∧ homes.Names name home? ∧
      ∀ c ∈ tail.toList.head?, c = '/' := by
  obtain ⟨rest, chars⟩ := List.head?_eq_some_iff.1 tilde
  obtain ⟨name, tail, rfl, noSlash, apart⟩ := exists_cut rest
  have cut : path = "~" ++ String.ofList name ++ String.ofList tail := by
    rw [← String.toList_inj, chars]
    simp
  have apart : ∀ c ∈ (String.ofList tail).toList.head?, c = '/' := by simpa using apart
  have noSlash : '/' ∉ (String.ofList name).toList := by simpa using noSlash
  have noNul : '\x00' ∉ (String.ofList name).toList := by
    intro nul
    rw [cut, expand?_tilde homes noSlash apart, if_pos nul] at allowed
    exact allowed rfl
  by_cases own : String.ofList name = ""
  · exact ⟨_, _, homes.own, cut, own.symm ▸ .own, apart⟩
  · exact ⟨_, _, _, cut, .account own noSlash noNul, apart⟩

theorem expand?_eq_some_iff {homes : Homes} {path expanded : String} :
    expand? homes path = some expanded ↔ Expands homes path expanded := by
  constructor
  · intro h
    by_cases tilde : path.toList.head? = some '~'
    · obtain ⟨name, tail, home?, rfl, named, apart⟩ :=
        exists_names_of_tilde tilde (Option.ne_none_iff_exists'.2 ⟨expanded, h⟩)
      rw [expand?_of_names named apart] at h
      cases h
      cases home? with
      | none => exact .unknown named tail apart
      | some home => exact .home named tail apart (joins_below home tail)
    · rw [expand?_plain homes tilde] at h
      cases h
      exact .plain tilde
  · intro h
    cases h with
    | plain noTilde => exact expand?_plain homes noTilde
    | home named tail apart joins =>
      rw [expand?_of_names named apart]
      exact congrArg some joins.below_eq
    | unknown named tail apart => exact expand?_of_names named apart

example : expand? ⟨none, fun name => [("model", "/srv/model/")].lookup name⟩ "~model/h" =
    some "/srv/model/h" := by decide +kernel

end Home

end LineCalc
