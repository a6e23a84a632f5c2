import UtilsRepo.Redis.ReadersAgree
import UtilsRepo.Redis.ReportedSuccess

/-!
# What is written until it expires

A write that sets a time to live holds for exactly that long, whatever clients do to other keys
meanwhile.
-/

namespace UtilsRepo.Redis

open Fallible RedisUtil

variable {α : Type}

variable [DecidableEq α]

/-! ## 1. What was written -/

section Reading

variable {store before later : Store α} {now : Clock} {k : String}

end Reading

end UtilsRepo.Redis
