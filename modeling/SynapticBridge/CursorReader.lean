import Mathlib.Data.List.Induction
import Mathlib.Data.List.Pairwise
import Mathlib.Order.Defs.LinearOrder
import Mathlib.Algebra.Order.Ring.Int

/-! A reader of a growing log that asks for what came after the last number it has seen. The log
may lose its memory between two readings; what was not read by then is lost to the reader. -/
namespace CursorReader

variable {α : Type*} (number : α → ℤ) (wanted : α → Bool)

def unread (memory : List α) (seen : ℤ) : List α :=
  memory.filter fun x => wanted x && decide (seen + 1 ≤ number x)

def lastNumber (seen : ℤ) (entries : List α) : ℤ := (entries.getLast?.map number).getD seen

/-- A reader of all entries so far, of which the last ones are in memory, up to `top`. -/
structure Followed (memory : List α) (top : ℤ) (all read lost : List α) (seen : ℤ) : Prop where
  once : (read ++ lost ++ unread number wanted memory seen).Perm (all.filter wanted)
  ascending : memory.Pairwise fun x y => number x < number y
  below : ∀ x ∈ memory, number x ≤ top
  seen_le : seen ≤ top
  ordered : read.Pairwise fun x y => number x < number y
  behind : ∀ x ∈ read, number x ≤ seen

variable {number wanted} {memory all read lost : List α} {top seen : ℤ}

theorem mem_unread {x : α} :
    x ∈ unread number wanted memory seen ↔ x ∈ memory ∧ wanted x = true ∧ seen + 1 ≤ number x := by
  rw [unread, List.mem_filter, Bool.and_eq_true, decide_eq_true_iff]

theorem Followed.start (top : ℤ) (nonneg : 0 ≤ top) :
    Followed number wanted [] top [] [] [] 0 where
  once := .refl _
  ascending := .nil
  below := by simp
  seen_le := nonneg
  ordered := .nil
  behind := by simp

theorem Followed.append (h : Followed number wanted memory top all read lost seen) {x : α}
    (higher : top < number x) :
    Followed number wanted (memory ++ [x]) (number x) (all ++ [x]) read lost seen where
  once := by
    have hnew : seen + 1 ≤ number x := by
      have := h.seen_le
      omega
    have hunread : unread number wanted (memory ++ [x]) seen =
        unread number wanted memory seen ++ [x].filter wanted := by
      rw [unread, List.filter_append, unread]
      congr 1
      exact List.filter_congr fun y hy => by simp [List.mem_singleton.mp hy, hnew]
    rw [hunread, List.filter_append, ← List.append_assoc]
    exact h.once.append_right _
  ascending := by
    rw [List.pairwise_append]
    refine ⟨h.ascending, List.pairwise_singleton _ _, fun a ha b hb => ?_⟩
    rw [List.mem_singleton.mp hb]
    exact (h.below a ha).trans_lt higher
  below := by
    intro y hy
    rcases List.mem_append.mp hy with hy | hy
    · exact (h.below y hy).trans higher.le
    · rw [List.mem_singleton.mp hy]
  seen_le := h.seen_le.trans higher.le
  ordered := h.ordered
  behind := h.behind

/-- The memory is gone, and with it what was not read. -/
theorem Followed.vanish (h : Followed number wanted memory top all read lost seen) :
    Followed number wanted [] top all read (lost ++ unread number wanted memory seen) seen where
  once := by
    rw [show unread number wanted [] seen = [] from rfl, List.append_nil, ← List.append_assoc]
    exact h.once
  ascending := .nil
  below := by simp
  seen_le := h.seen_le
  ordered := h.ordered
  behind := h.behind

theorem Followed.unread_ascending (h : Followed number wanted memory top all read lost seen) :
    (unread number wanted memory seen).Pairwise fun x y => number x < number y :=
  h.ascending.sublist List.filter_sublist

theorem Followed.read_ascending (h : Followed number wanted memory top all read lost seen) :
    (read ++ unread number wanted memory seen).Pairwise fun x y => number x < number y := by
  rw [List.pairwise_append]
  refine ⟨h.ordered, h.unread_ascending, fun x hx y hy => ?_⟩
  have hseen := h.behind x hx
  have hnew := (mem_unread.mp hy).2.2
  omega

theorem le_lastNumber (seen : ℤ) {entries : List α}
    (ascending : entries.Pairwise fun x y => number x < number y) :
    ∀ x ∈ entries, number x ≤ lastNumber number seen entries := by
  intro x hx
  induction entries using List.reverseRecOn with
  | nil => cases hx
  | append_singleton entries last _ =>
    rw [lastNumber, List.getLast?_concat, Option.map_some, Option.getD_some]
    rcases List.mem_append.mp hx with hx | hx
    · exact ((List.pairwise_append.mp ascending).2.2 x hx last (List.mem_singleton.mpr rfl)).le
    · rw [List.mem_singleton.mp hx]

theorem lastNumber_cases (number : α → ℤ) (seen : ℤ) (entries : List α) :
    (entries = [] ∧ lastNumber number seen entries = seen) ∨
      ∃ x ∈ entries, lastNumber number seen entries = number x := by
  cases hlast : entries.getLast? with
  | none => exact .inl ⟨List.getLast?_eq_none_iff.mp hlast, by simp [lastNumber, hlast]⟩
  | some x => exact .inr ⟨x, List.mem_of_getLast? hlast, by simp [lastNumber, hlast]⟩

theorem Followed.poll (h : Followed number wanted memory top all read lost seen) :
    Followed number wanted memory top all (read ++ unread number wanted memory seen) lost
      (lastNumber number seen (unread number wanted memory seen)) where
  once := by
    have hdone : unread number wanted memory
        (lastNumber number seen (unread number wanted memory seen)) = [] := by
      rw [List.eq_nil_iff_forall_not_mem]
      intro x hx
      obtain ⟨hmem, hwanted, hlater⟩ := mem_unread.mp hx
      by_cases hnew : seen + 1 ≤ number x
      · have hle := le_lastNumber seen h.unread_ascending x
          (mem_unread.mpr ⟨hmem, hwanted, hnew⟩)
        omega
      · rcases lastNumber_cases number seen (unread number wanted memory seen) with
          ⟨-, hlast⟩ | ⟨y, hy, hlast⟩
        · omega
        · have hnewer := (mem_unread.mp hy).2.2
          omega
    rw [hdone, List.append_nil]
    refine List.Perm.trans ?_ h.once
    rw [List.append_assoc, List.append_assoc]
    exact List.perm_append_comm.append_left _
  ascending := h.ascending
  below := h.below
  seen_le := by
    rcases lastNumber_cases number seen (unread number wanted memory seen) with
      ⟨-, hlast⟩ | ⟨x, hx, hlast⟩
    · rw [hlast]
      exact h.seen_le
    · rw [hlast]
      exact h.below x (mem_unread.mp hx).1
  ordered := h.read_ascending
  behind := by
    intro x hx
    rcases List.mem_append.mp hx with hx | hx
    · have hseen := h.behind x hx
      rcases lastNumber_cases number seen (unread number wanted memory seen) with
        ⟨-, hlast⟩ | ⟨y, hy, hlast⟩
      · omega
      · have hnewer := (mem_unread.mp hy).2.2
        omega
    · exact le_lastNumber seen h.unread_ascending x hx

theorem Followed.complete (h : Followed number wanted memory top all read [] seen)
    (ascending : all.Pairwise fun x y => number x < number y) :
    read ++ unread number wanted memory seen = all.filter wanted := by
  have hperm := h.once
  rw [List.append_nil] at hperm
  refine hperm.eq_of_pairwise ?_ h.read_ascending (ascending.sublist List.filter_sublist)
  intro x y _ _ hxy hyx
  omega

/-- In a log in order, what comes up to one number and what comes after it stand one behind the
other. -/
theorem filter_split (wanted : α → Bool) {entries : List α} (m n : ℤ) (hmn : m ≤ n)
    (ascending : entries.Pairwise fun x y => number x < number y) :
    (entries.filter fun x => wanted x && decide (number x ≤ m)) ++
        (entries.filter fun x => wanted x && (decide (m + 1 ≤ number x) && decide (number x ≤ n))) =
      entries.filter fun x => wanted x && decide (number x ≤ n) := by
  induction entries with
  | nil => rfl
  | cons x xs ih =>
    obtain ⟨hx, hxs⟩ := List.pairwise_cons.mp ascending
    by_cases hle : number x ≤ m
    · have hfirst : number x ≤ n := hle.trans hmn
      have hnot : ¬ m + 1 ≤ number x := by omega
      simp only [List.filter_cons, hle, hfirst, hnot, decide_true, decide_false, Bool.and_true,
        Bool.and_false, Bool.false_eq_true, if_false]
      split_ifs
      · rw [List.cons_append, ih hxs]
      · exact ih hxs
    · -- everything from here on is behind the first part
      have hnone : (x :: xs).filter (fun y => wanted y && decide (number y ≤ m)) = [] := by
        rw [List.filter_eq_nil_iff]
        intro y hy
        have hlater : m < number y := by
          rcases List.mem_cons.mp hy with rfl | hy
          · omega
          · have := hx y hy
            omega
        simp [hlater]
      have hall : ∀ y ∈ x :: xs, m + 1 ≤ number y := by
        intro y hy
        rcases List.mem_cons.mp hy with rfl | hy
        · omega
        · have := hx y hy
          omega
      rw [hnone, List.nil_append]
      exact List.filter_congr fun y hy => by simp [hall y hy]

end CursorReader
