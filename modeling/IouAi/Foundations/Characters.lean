import Mathlib.Data.List.Basic

/-!
# Characters of a text

A statement about every character of a text, or about some character of it, is decided by going
through the text, and not by going through all characters there are.
-/

namespace IouAi

variable {P : Char → Prop} [DecidablePred P]

instance (priority := 2000) decidableForallMemChar (text : List Char) :
    Decidable (∀ c ∈ text, P c) :=
  List.decidableBAll P text

instance (priority := 2000) decidableExistsMemChar (text : List Char) :
    Decidable (∃ c ∈ text, P c) :=
  List.decidableBEx P text

end IouAi
