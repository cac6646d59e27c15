import MessageBroker.Lib.Buffer

namespace MessageBroker.Lib

variable {n : ℕ}

structure CString (n : ℕ) where
  bytes : List UInt8
  noNul : 0 ∉ bytes
  fits : bytes.length < n
  deriving DecidableEq

def CString.field (s : CString n) : List UInt8 :=
  s.bytes ++ List.replicate (n - s.bytes.length) 0

def strcpy (mem : List UInt8) (off : ℕ) (src : List UInt8) : List UInt8 :=
  writeAt mem off (src ++ [0])

def readString (mem : List UInt8) (off : ℕ) : List UInt8 :=
  (mem.drop off).takeWhile (fun b => b != 0)

lemma CString.field_length (s : CString n) : s.field.length = n := by
  have hs := s.fits
  simp only [field, List.length_append, List.length_replicate]
  omega

lemma CString.field_eq (s : CString n) :
    s.field = s.bytes ++ [0] ++ List.replicate (n - (s.bytes.length + 1)) 0 := by
  have hs := s.fits
  have hn : n - s.bytes.length = 1 + (n - (s.bytes.length + 1)) := by omega
  rw [field, hn, List.replicate_add]
  simp

lemma strcpy_field (s : CString n) (front back : List UInt8) :
    strcpy (front ++ (List.replicate n 0 ++ back)) front.length s.bytes =
      front ++ (s.field ++ back) := by
  have hs := s.fits
  rw [strcpy, writeAt_append, CString.field_eq, List.drop_append]
  have hd : s.bytes.length + 1 - n = 0 := by omega
  simp [hd]

lemma takeWhile_noNul {bs : List UInt8} (h : 0 ∉ bs) (back : List UInt8) :
    (bs ++ 0 :: back).takeWhile (fun b => b != 0) = bs := by
  have ht : ∀ b ∈ bs, (b != 0) = true := by
    intro b hb
    have hne : b ≠ 0 := fun he => h (he ▸ hb)
    simpa using hne
  rw [List.takeWhile_append_of_pos ht]
  simp

lemma takeWhile_field (s : CString n) (back : List UInt8) :
    (s.field ++ back).takeWhile (fun b => b != 0) = s.bytes := by
  rw [CString.field_eq, List.append_assoc, List.append_assoc]
  exact takeWhile_noNul s.noNul _

lemma readString_field (s : CString n) (front back : List UInt8) :
    readString (front ++ (s.field ++ back)) front.length = s.bytes := by
  rw [readString, List.drop_left]
  exact takeWhile_field s back

lemma readString_strcpy {mem line : List UInt8} {off : ℕ} (hoff : off ≤ mem.length)
    (hline : 0 ∉ line) : readString (strcpy mem off line) off = line := by
  have hlen : (mem.take off).length = off := by
    rw [List.length_take]
    omega
  rw [readString, strcpy, writeAt, List.append_assoc, List.drop_left' hlen, List.append_assoc]
  exact takeWhile_noNul hline _

end MessageBroker.Lib
