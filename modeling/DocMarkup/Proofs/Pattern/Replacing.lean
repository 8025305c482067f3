import DocMarkup.Proofs.Pattern.Lockstep
import DocMarkup.Proofs.Pattern.Soundness

namespace DocMarkup

namespace Pattern

/-- The text with all matches replaced, for a pattern that does not match without taking a
character. The replacement is given the match and its text. -/
def replaceAll (pattern : Pattern) (replacement : Match → List Char → List Char)
    (before : Option Char) : List Char → List Char
  | [] => []
  | char :: rest =>
      match pattern.search? before (char :: rest) with
      | none => char :: rest
      | some found =>
          if found.stop = 0 then char :: rest
          else
            let taken := (char :: rest).take found.stop
            taken.take found.start ++ replacement found (taken.drop found.start) ++
              replaceAll pattern replacement taken.getLast? ((char :: rest).drop found.stop)
termination_by text => text.length
decreasing_by
  simp only [List.length_drop, List.length_cons]
  omega

variable {pattern : Pattern} {replacement : Match → List Char → List Char}
  {scan : List Char → List Char}

/-- One look at a text character by character does the same as replacing: where the pattern fails
it keeps the character, and where it is found it puts the replacement. -/
structure Replaces (pattern : Pattern) (replacement : Match → List Char → List Char)
    (scan : List Char → List Char) : Prop where
  nil : scan [] = []
  skip : ∀ {subject : Subject} {position : Nat} {char : Char},
    Fails subject [] [⟨.whole, pattern⟩] position → subject.text[position]? = some char →
      scan (subject.text.drop position) = char :: scan (subject.text.drop (position + 1))
  hit : ∀ {subject : Subject} {position : Nat} {found : Match},
    Finds subject [] [⟨.whole, pattern⟩] position ⟨position, []⟩ found →
      position < found.stop ∧
        scan (subject.text.drop position) =
          replacement found ((subject.text.take found.stop).drop position) ++
            scan (subject.text.drop found.stop)

namespace Replaces

variable {subject : Subject} {position : Nat} {found : Match}

theorem eq_self (h : Replaces pattern replacement scan)
    (hsearched : Searched subject pattern position none) :
    scan (subject.text.drop position) = subject.text.drop position := by
  generalize hresult : none = result at hsearched
  induction hsearched with
  | past hlt =>
      rw [List.drop_eq_nil_of_le (Nat.le_of_lt hlt)]
      exact h.nil
  | @next position result hle htried _ ih =>
      have hrest := ih hresult
      rcases Nat.lt_or_eq_of_le hle with hlt | rfl
      · cases htried with
        | fails hfails =>
            rw [h.skip hfails (List.getElem?_eq_getElem hlt), hrest, List.getElem_cons_drop]
      · rw [List.drop_length]
        exact h.nil
  | here => cases hresult

theorem eq_replaced (h : Replaces pattern replacement scan)
    (hsearched : Searched subject pattern position (some found)) :
    position ≤ found.start ∧ found.start < found.stop ∧
      scan (subject.text.drop position) =
        (subject.text.take found.start).drop position ++
          (replacement found ((subject.text.take found.stop).drop found.start) ++
            scan (subject.text.drop found.stop)) := by
  generalize hresult : some found = result at hsearched
  induction hsearched with
  | past => cases hresult
  | @next position result hle htried hnext ih =>
      obtain ⟨hstart, hstop, hscan⟩ := ih hresult
      have hlt : position < subject.text.length := by
        subst hresult
        cases hnext with
        | next hle => omega
        | here hle => omega
      cases htried with
      | fails hfails =>
          have htake : position < (subject.text.take found.start).length := by
            rw [List.length_take]
            exact Nat.lt_min.mpr ⟨hstart, hlt⟩
          refine ⟨Nat.le_of_succ_le hstart, hstop, ?_⟩
          rw [h.skip hfails (List.getElem?_eq_getElem hlt), hscan, List.drop_eq_getElem_cons htake,
            List.getElem_take, List.cons_append]
  | here hle htried =>
      cases hresult
      cases htried with
      | finds hfinds =>
          obtain ⟨hlt, hscan⟩ := h.hit hfinds
          have hstart : found.start = _ := hfinds.start_eq
          subst hstart
          refine ⟨Nat.le_refl _, hlt, ?_⟩
          rw [hscan, List.drop_eq_nil_of_le (List.length_take_le _ _), List.nil_append]

theorem replaceAll_eq (h : Replaces pattern replacement scan) (before : Option Char)
    (text : List Char) : replaceAll pattern replacement before text = scan text := by
  fun_induction replaceAll pattern replacement before text with
  | case1 => exact h.nil.symm
  | case2 before char rest hnone =>
      have hsearched := search?_searched pattern ⟨before, char :: rest⟩
      rw [hnone] at hsearched
      exact (h.eq_self hsearched).symm
  | case3 before char rest found hfound hstop =>
      have hsearched := search?_searched pattern ⟨before, char :: rest⟩
      rw [hfound] at hsearched
      have hlt := (h.eq_replaced hsearched).2.1
      omega
  | case4 before char rest found hfound hstop taken ih =>
      have hsearched := search?_searched pattern ⟨before, char :: rest⟩
      rw [hfound] at hsearched
      obtain ⟨-, hlt, hscan⟩ := h.eq_replaced hsearched
      have htaken : taken.take found.start = (char :: rest).take found.start := by
        rw [List.take_take, Nat.min_eq_left (Nat.le_of_lt hlt)]
      rw [ih, htaken, List.append_assoc]
      exact hscan.symm

end Replaces

end Pattern

end DocMarkup
