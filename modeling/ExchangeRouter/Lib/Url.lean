import Mathlib.Data.List.TakeWhile
import Mathlib.Data.Nat.Notation

/-!
# What stands after the host of a URL

The path goes up to where a query or a fragment begins, and its dot segments are taken away before
it is sent. A text pasted into a path arrives as it was written only if it has none of these marks.
-/

namespace Url

/-- The mark of a query or of a fragment. -/
def isMark (c : Char) : Bool := c = '?' || c = '#'

/-- The path: the text before the query and the fragment. -/
def path (text : String) : String := String.ofList (text.toList.takeWhile fun c => !isMark c)

/-- The query, where there is one. -/
def query (text : String) : Option String :=
  match text.toList.dropWhile fun c => !isMark c with
  | '?' :: rest => some (String.ofList (rest.takeWhile (· ≠ '#')))
  | _ => none

/-- The text between the slashes. -/
def segments (path : String) : List String := (path.toList.splitOn '/').map String.ofList

/-- `.` is left out, and `..` takes away the segment before it. -/
def removeDots (segs : List (List Char)) : List (List Char) :=
  segs.foldl (fun out seg =>
    if seg = ['.'] then out
    else if seg = ['.', '.'] then out.dropLast
    else out ++ [seg]) []

/-- The path without its dot segments. -/
def normalized (path : String) : String :=
  String.ofList (['/'].intercalate (removeDots (path.toList.splitOn '/')))

example : normalized "fake/spot/trades/.." = "fake/spot" := by decide

/-! ## Segments -/

/-- A path is cut where two paths are joined. -/
lemma segments_append (a b : String) : segments (a ++ "/" ++ b) = segments a ++ segments b := by
  unfold segments
  have htoList : (a ++ "/" ++ b).toList = a.toList ++ '/' :: b.toList := by simp
  rw [htoList, List.splitOn_append_cons_self, List.map_append]

lemma segments_of_notMem {s : String} (h : '/' ∉ s.toList) : segments s = [s] := by
  unfold segments
  rw [List.splitOn_eq_singleton h, List.map_singleton, String.ofList_toList]

lemma segments_length_pos (s : String) : 1 ≤ (segments s).length := by
  unfold segments
  rw [List.length_map]
  exact List.length_pos_iff.mpr (List.splitOn_ne_nil _ _)

/-- A text with a slash has two segments at least. -/
lemma notMem_of_length_segments {s : String} (h : (segments s).length = 1) : '/' ∉ s.toList := by
  intro hmem
  obtain ⟨a, b, hab⟩ := List.append_of_mem hmem
  have hs : s = String.ofList a ++ "/" ++ String.ofList b := by
    apply String.toList_inj.mp
    simp [hab]
  rw [hs, segments_append, List.length_append] at h
  have ha := segments_length_pos (String.ofList a)
  have hb := segments_length_pos (String.ofList b)
  omega

/-! ## Texts that stay as they are -/

/-- No mark and no dot segment. -/
def IsPlain (text : String) : Prop :=
  (∀ c ∈ text.toList, isMark c = false) ∧ "." ∉ segments text ∧ ".." ∉ segments text

/-- By the characters of the text, not by all there are. -/
instance (text : String) : Decidable (IsPlain text) :=
  @instDecidableAnd _ _ (List.decidableBAll _ text.toList) inferInstance

/-- A plain text is all path. -/
lemma path_of_plain {text : String} (h : IsPlain text) : path text = text := by
  have htake : (text.toList.takeWhile fun c => !isMark c) = text.toList :=
    List.takeWhile_eq_self_iff.mpr fun c hc => by simp [h.1 c hc]
  rw [path, htake, String.ofList_toList]

lemma query_of_plain {text : String} (h : IsPlain text) : query text = none := by
  have hdrop : (text.toList.dropWhile fun c => !isMark c) = [] :=
    List.dropWhile_eq_nil_iff.mpr fun c hc => by simp [h.1 c hc]
  rw [query, hdrop]

/-- There are no dots to remove. -/
lemma removeDots_of_plain {segs : List (List Char)} (h : ['.'] ∉ segs) (h' : ['.', '.'] ∉ segs) :
    removeDots segs = segs := by
  have happend : ∀ out : List (List Char), segs.foldl (fun out seg =>
      if seg = ['.'] then out
      else if seg = ['.', '.'] then out.dropLast
      else out ++ [seg]) out = out ++ segs := by
    induction segs with
    | nil => exact fun out => (List.append_nil out).symm
    | cons seg segs ih =>
      intro out
      rw [List.mem_cons, not_or] at h h'
      rw [List.foldl_cons, if_neg (Ne.symm h.1), if_neg (Ne.symm h'.1), ih h.2 h'.2,
        List.append_assoc, List.singleton_append]
  exact happend []

/-- A plain text arrives as it is. -/
lemma normalized_of_plain {text : String} (h : IsPlain text) : normalized text = text := by
  have hnotMem : ∀ seg : String, seg ∉ segments text →
      seg.toList ∉ text.toList.splitOn '/' := by
    intro seg hseg hmem
    apply hseg
    rw [segments, List.mem_map]
    exact ⟨seg.toList, hmem, String.ofList_toList⟩
  rw [normalized, removeDots_of_plain (hnotMem "." h.2.1) (hnotMem ".." h.2.2),
    List.intercalate_splitOn, String.ofList_toList]

end Url
