import UtilsRepo.Redis.SharedServer

/-!
# Readers agree

Whatever clients have done, the operations that read a key tell one story about it: its type, its size,
its elements and its time to live fit together.
-/

namespace UtilsRepo.Redis

open Fallible RedisUtil

variable {α : Type} [DecidableEq α]

/-! ## 1. What an operation answers -/

-- the readers never ask the clock
variable {now : Clock}

/-- The answer when nothing fails. -/
def Store.answer {β : Type} (store : Store α) (now : Clock)
    (op : Fallible JavaException (Server α) β) : Except JavaException β :=
  (eval op ⟨store, now, []⟩).1

section Answers

variable {store : Store α} {c : Command α}

end Answers

section Readers

variable (store : Store α) (k : String)

/-- What is there to be read at one type. -/
def Store.view {β : Type} (store : Store α) (k : String) (view : Data α → Option β) (empty : β) :
    Option β :=
  (store k).elim (some empty) fun entry => view entry.data

end Readers

/-! ## 2. One story -/

section Agree

variable {store : Store α} {k : String}

end Agree

end UtilsRepo.Redis
