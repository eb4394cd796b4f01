import CodeAtlas.Digest
import CodeAtlas.Proofs.Text.Utf8

/-! What a digest tells. Its forty digits are its five words, no more and no less, so that two
digests are written alike only when they are one. -/
namespace CodeAtlas.Digest

def wordsOfMessage (message : List UInt8) : State :=
  blocks ((padded message).length / 64) (wordsOf (padded message)) .initial

def State.digits (s : State) : List Char := [s.a, s.b, s.c, s.d, s.e].flatMap hexWord

theorem sha1_eq (message : List UInt8) :
    sha1 message = String.ofList (wordsOfMessage message).digits := rfl

theorem digit_char_injective :
    ∀ m < 16, ∀ n < 16, Nat.digitChar m = Nat.digitChar n → m = n := by
  decide

theorem half_of_nibbles {m n : Nat} (first : m % 16 = n % 16)
    (second : m / 16 % 16 = n / 16 % 16) (third : m / 256 % 16 = n / 256 % 16)
    (fourth : m / 4096 % 16 = n / 4096 % 16) : m % 65536 = n % 65536 := by
  omega

theorem hexWord_injective : Function.Injective hexWord := by
  intro v w h
  have nibbles : ∀ shift ∈ [28, 24, 20, 16, 12, 8, 4, 0],
      v.toNat >>> shift % 16 = w.toNat >>> shift % 16 := by
    intro shift mem
    have digit := List.map_inj_left.mp h shift mem
    exact digit_char_injective _ (Nat.mod_lt _ (by decide)) _ (Nat.mod_lt _ (by decide)) digit
  have small := v.toNat_lt
  have small' := w.toNat_lt
  simp only [List.forall_mem_cons, Nat.shiftRight_eq_div_pow, Nat.pow_zero, Nat.div_one] at nibbles
  obtain ⟨h7, h6, h5, h4, h3, h2, h1, h0, -⟩ := nibbles
  have low := half_of_nibbles h0 h1 h2 h3
  have high : v.toNat / 65536 % 65536 = w.toNat / 65536 % 65536 := by
    refine half_of_nibbles h4 ?_ ?_ ?_ <;> simpa only [Nat.div_div_eq_div_mul]
  exact UInt32.toNat_inj.mp (by omega)

theorem digits_injective : Function.Injective State.digits := by
  rintro ⟨a, b, c, d, e⟩ ⟨a', b', c', d', e'⟩ h
  simp only [State.digits, List.flatMap_cons, List.flatMap_nil, List.append_nil] at h
  obtain ⟨ha, h⟩ := List.append_inj h rfl
  obtain ⟨hb, h⟩ := List.append_inj h rfl
  obtain ⟨hc, h⟩ := List.append_inj h rfl
  obtain ⟨hd, he⟩ := List.append_inj h rfl
  rw [hexWord_injective ha, hexWord_injective hb, hexWord_injective hc, hexWord_injective hd,
    hexWord_injective he]

def Collision (message other : List UInt8) : Prop :=
  message ≠ other ∧ wordsOfMessage message = wordsOfMessage other

theorem sha1_eq_iff_words {message other : List UInt8} :
    sha1 message = sha1 other ↔ wordsOfMessage message = wordsOfMessage other := by
  rw [sha1_eq, sha1_eq, String.ofList_inj, digits_injective.eq_iff]

theorem sha1_eq_iff {message other : List UInt8} :
    sha1 message = sha1 other ↔ message = other ∨ Collision message other := by
  constructor
  · intro same
    by_cases equal : message = other
    · exact .inl equal
    · exact .inr ⟨equal, sha1_eq_iff_words.mp same⟩
  · rintro (rfl | ⟨-, same⟩)
    · rfl
    · exact sha1_eq_iff_words.mpr same

end CodeAtlas.Digest
