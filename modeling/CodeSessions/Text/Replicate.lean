/-!
# Replication — a text written several times over

The copies are made by doubling, so the cost is that of writing the result.
-/

namespace CodeSessions
namespace Text

/-- `n` copies of `s`. -/
def replicate (s : String) (n : Nat) : String :=
  if n = 0 then ""
  else
    let half := replicate s (n / 2)
    if n % 2 = 0 then half ++ half else half ++ half ++ s
  termination_by n
  decreasing_by omega

theorem toList_replicate (s : String) (n : Nat) :
    (replicate s n).toList = (List.replicate n s.toList).flatten := by
  induction n using Nat.strongRecOn with
  | ind n ih =>
    rw [replicate]
    split
    · simp [*]
    · rename_i hn
      have half := ih (n / 2) (by omega)
      split
      · rename_i heven
        have hsum : n = n / 2 + n / 2 := by omega
        conv => rhs; rw [hsum, ← List.replicate_append_replicate, List.flatten_append]
        simp [half]
      · rename_i hodd
        have hsum : n = n / 2 + n / 2 + 1 := by omega
        conv => rhs; rw [hsum, ← List.replicate_append_replicate, ← List.replicate_append_replicate]
        simp only [List.flatten_append, String.toList_append, half]
        simp

end Text
end CodeSessions
