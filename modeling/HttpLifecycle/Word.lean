namespace HttpLifecycle.Word

def size : Nat := 0x10000000000000000

def half : Nat := 0x8000000000000000

def size32 : Nat := 0x100000000

def wrap (n : Nat) : Nat := n % size

def saturate (n : Nat) : Nat := if n < size then n else size - 1

def wrap32 (n : Nat) : Nat := n % size32

theorem wrap_of_lt {n : Nat} (h : n < size) : wrap n = n := Nat.mod_eq_of_lt h

theorem wrap_succ (n : Nat) : wrap (wrap n + 1) = wrap (n + 1) := Nat.mod_add_mod n size 1

theorem saturate_of_lt {n : Nat} (h : n < size) : saturate n = n := if_pos h

theorem saturate_add (m n : Nat) : saturate (saturate m + n) = saturate (m + n) := by
  by_cases h : m < size
  · rw [saturate_of_lt h]
  · have hsize : 0 < size := by decide
    have hm : saturate m = size - 1 := if_neg h
    have hsum : saturate (m + n) = size - 1 := if_neg (by omega)
    rw [hm, hsum, saturate]
    split <;> omega

end HttpLifecycle.Word
