import SynapticBridge.IntentClassifier
import Mathlib.Algebra.BigOperators.Ring.List
import Mathlib.Data.Rat.Defs
import Mathlib.Tactic.FieldSimp

/-! The vector of a text against its normalised bag of words. Tokens that share a bucket write
over one another, so the two agree exactly when no two tokens of the text do. -/
namespace BagOfWords

open Domain IntentClassifier PythonText Scatter

variable {py : TextPrimitives} {text text' : Text}

/-- For each bucket the share of the token occurrences that belong to it. -/
def bagOfWords (py : TextPrimitives) (text : Text) : List ℚ :=
  (List.range EMBEDDING_DIM).map fun i =>
    (hits (bucket py) (tokenize py text) i : ℚ) / ((tokenize py text).length : ℚ)

structure Normalised (py : TextPrimitives) (text : Text) : Prop where
  entries : textToEmbedding py text = bagOfWords py text
  total : (textToEmbedding py text : List ℚ).sum = 1
  unordered : ∀ text', (tokenize py text').Perm (tokenize py text) →
    textToEmbedding py text' = (textToEmbedding py text : List ℚ)

/-- No two different tokens share a bucket. -/
def Separate (py : TextPrimitives) (tokens : List Text) : Prop :=
  ∀ t ∈ tokens, ∀ u ∈ tokens, bucket py t = bucket py u → t = u

section Shares

theorem bagOfWords_entry {i : ℕ} (hi : i < EMBEDDING_DIM) : (bagOfWords py text)[i]? =
    some ((hits (bucket py) (tokenize py text) i : ℚ) / ((tokenize py text).length : ℚ)) := by
  rw [bagOfWords, List.getElem?_map, List.getElem?_range hi]
  rfl

theorem length_bagOfWords : (bagOfWords py text).length = EMBEDDING_DIM := by
  rw [bagOfWords, List.length_map, List.length_range]

theorem length_cast_ne_zero (hasToken : tokenize py text ≠ []) :
    ((tokenize py text).length : ℚ) ≠ 0 := by
  rw [Nat.cast_ne_zero]
  exact mt List.length_eq_zero_iff.mp hasToken

theorem bagOfWords_sum (hasToken : tokenize py text ≠ []) : (bagOfWords py text).sum = 1 := by
  have hsum : ((List.range EMBEDDING_DIM).map fun i =>
      (hits (bucket py) (tokenize py text) i : ℚ)).sum = (tokenize py text).length := by
    rw [← sum_hits fun token _ => bucket_lt py token, Nat.cast_list_sum, List.map_map]
    rfl
  simp only [bagOfWords, div_eq_mul_inv]
  rw [List.sum_map_mul_right, hsum, mul_inv_cancel₀ (length_cast_ne_zero hasToken)]

theorem bagOfWords_perm (h : (tokenize py text').Perm (tokenize py text)) :
    bagOfWords py text' = bagOfWords py text := by
  unfold bagOfWords
  rw [h.length_eq]
  apply List.map_congr_left
  intro i _
  rw [hits_perm h]

theorem separate_perm {tokens tokens' : List Text} (h : tokens'.Perm tokens)
    (separate : Separate py tokens) : Separate py tokens' :=
  fun t ht u hu => separate t (h.subset ht) u (h.subset hu)

end Shares

section Agreement

/-- A token alone in its bucket writes the whole share of the bucket. -/
theorem embedding_of_separate (hasToken : tokenize py text ≠ [])
    (separate : Separate py (tokenize py text)) : textToEmbedding py text = bagOfWords py text := by
  apply List.ext_getElem?
  intro i
  by_cases hi : i < EMBEDDING_DIM
  · rw [bagOfWords_entry hi]
    rcases textToEmbedding_entry (K := ℚ) hasToken hi with ⟨hnone, hentry⟩ |
      ⟨token, htoken, rfl, hentry⟩
    · rw [hentry, hnone, Nat.cast_zero, zero_div]
    · rw [hentry, hits_of_alone fun u hu => separate u hu token htoken]
  · rw [not_lt] at hi
    rw [List.getElem?_eq_none (by rwa [length_textToEmbedding]),
      List.getElem?_eq_none (by rwa [length_bagOfWords])]

/-- In a shared bucket the token written last hides the others. -/
theorem separate_of_embedding (hasToken : tokenize py text ≠ [])
    (agree : textToEmbedding py text = bagOfWords py text) : Separate py (tokenize py text) := by
  intro t ht u hu hbucket
  by_contra hne
  rcases textToEmbedding_entry (K := ℚ) hasToken (bucket_lt py t) with ⟨hnone, -⟩ |
    ⟨token, -, hsame, hentry⟩
  · exact hits_eq_zero.mp hnone t ht rfl
  · have hcount : (tokenize py text).count token = hits (bucket py) (tokenize py text)
        (bucket py t) := by
      rw [agree, bagOfWords_entry (bucket_lt py t)] at hentry
      have hcast := (div_left_inj' (length_cast_ne_zero hasToken)).mp (Option.some.inj hentry)
      exact_mod_cast hcast.symm
    -- one of the two tokens is not the one that was written
    obtain ⟨other, hother, hdiffers, hshared⟩ : ∃ other ∈ tokenize py text,
        other ≠ token ∧ bucket py other = bucket py token := by
      by_cases htoken : t = token
      · exact ⟨u, hu, fun h => hne (htoken.trans h.symm), by rw [← hbucket, hsame]⟩
      · exact ⟨t, ht, htoken, hsame.symm⟩
    have hless := count_lt_hits hother hdiffers hshared
    rw [hsame] at hless
    omega

end Agreement

/-- The vector of a text is its normalised bag of words exactly when no two different tokens
of the text share a bucket. -/
theorem normalised_iff (hasToken : tokenize py text ≠ []) :
    Normalised py text ↔ Separate py (tokenize py text) := by
  constructor
  · intro h
    exact separate_of_embedding hasToken h.entries
  · intro separate
    have agree := embedding_of_separate hasToken separate
    refine ⟨agree, by rw [agree, bagOfWords_sum hasToken], ?_⟩
    intro text' hperm
    have hasToken' : tokenize py text' ≠ [] := by
      intro h
      rw [h] at hperm
      exact hasToken hperm.nil_eq.symm
    rw [agree, ← bagOfWords_perm hperm]
    exact embedding_of_separate hasToken' (separate_perm hperm separate)

theorem normalised_deploy : tokenize defaultWords "Search, deploy!".toList ≠ [] ∧
    Normalised defaultWords "Search, deploy!".toList := by
  have htokens : tokenize defaultWords "Search, deploy!".toList =
      ["search".toList, "deploy".toList] := by decide
  have hasToken : tokenize defaultWords "Search, deploy!".toList ≠ [] := by
    rw [htokens]
    exact List.cons_ne_nil _ _
  refine ⟨hasToken, (normalised_iff hasToken).mpr ?_⟩
  rw [htokens]
  unfold Separate
  decide

/-- Two words of one bucket: the second one takes the place of the first. -/
theorem shared_bucket_overwritten :
    tokenize defaultWords "search lookup".toList = ["search".toList, "lookup".toList] ∧
    bucket defaultWords "search".toList = 21 ∧ bucket defaultWords "lookup".toList = 21 ∧
    (textToEmbedding defaultWords "search lookup".toList : List ℚ)[21]? = some (1 / 2) ∧
    (textToEmbedding defaultWords "search lookup".toList : List ℚ).sum = 1 / 2 ∧
    ¬ Normalised defaultWords "search lookup".toList := by
  have hsum : (textToEmbedding defaultWords "search lookup".toList : List ℚ).sum = 1 / 2 := by
    decide +kernel
  refine ⟨by decide, by decide, by decide, rfl, hsum, ?_⟩
  intro h
  have htotal := h.total
  rw [hsum] at htotal
  norm_num at htotal

end BagOfWords
