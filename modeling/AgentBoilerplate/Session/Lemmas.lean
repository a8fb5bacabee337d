import AgentBoilerplate.Session
import AgentBoilerplate.Text

namespace AgentBoilerplate.Session

open Effects Collections

namespace RefreshTokens

theorem findByHash_eq_some {tokens : RefreshTokens} {hash : String} {token : RefreshToken}
    (h : tokens.findByHash hash = some token) : token ∈ tokens ∧ token.tokenHash = hash :=
  ⟨List.mem_of_find?_eq_some h, by simpa using List.find?_some h⟩

theorem findByHash_eq_none (tokens : RefreshTokens) (hash : String) :
    tokens.findByHash hash = none ↔ ∀ token ∈ tokens, token.tokenHash ≠ hash := by
  simp [findByHash, List.find?_eq_none, Table.mem_def]

theorem mem_insert {adapter : Adapter} {tokens : RefreshTokens} {token row : RefreshToken}
    (h : row ∈ (tokens.insert adapter token).2) : row = token ∨ row ∈ tokens := by
  unfold insert at h
  cases adapter with
  | inMemory => exact (Table.mem_insert tokens token row).mp h |>.imp_right And.left
  | postgres =>
      dsimp only at h
      split at h
      · exact Or.inr h
      · exact (Table.mem_insert tokens token row).mp h |>.imp_right And.left

-- Fresh identifiers and plaintexts never meet a constraint of the table.
theorem insert_fresh {tokens : RefreshTokens} {token : RefreshToken}
    (hfresh : ∀ row ∈ tokens, row.id ≠ token.id ∧ row.tokenHash ≠ token.tokenHash)
    (adapter : Adapter) : tokens.insert adapter token = (.ok (), Table.insert tokens token) := by
  cases adapter with
  | inMemory => rfl
  | postgres =>
      have hany : ∀ row ∈ tokens.rows, ¬ row.id = token.id ∧ ¬ row.tokenHash = token.tokenHash :=
        hfresh
      simpa [insert] using hany

theorem mem_markConsumed {tokens : RefreshTokens} {id : Uuid} {at_ : Int} {row : RefreshToken} :
    row ∈ tokens.markConsumed id at_ ↔
      ∃ old ∈ tokens, row = if old.id = id then { old with consumedAt := some at_ } else old := by
  simp [markConsumed]

theorem mem_markConsumed_cases {tokens : RefreshTokens} {id : Uuid} {at_ : Int}
    {row : RefreshToken} (h : row ∈ tokens.markConsumed id at_) :
    row ∈ tokens ∧ row.id ≠ id ∨
      ∃ old ∈ tokens, old.id = id ∧ row = { old with consumedAt := some at_ } := by
  obtain ⟨old, hold, rfl⟩ := mem_markConsumed.mp h
  by_cases hid : old.id = id
  · exact Or.inr ⟨old, hold, hid, by simp [hid]⟩
  · exact Or.inl (by simpa [hid] using hold)

theorem mem_delete {tokens : RefreshTokens} {id : Uuid} {row : RefreshToken} :
    row ∈ tokens.delete id ↔ row ∈ tokens ∧ row.id ≠ id := by
  simp [delete]

theorem mem_deleteFamily {tokens : RefreshTokens} {familyId : Uuid} {row : RefreshToken} :
    row ∈ tokens.deleteFamily familyId ↔ row ∈ tokens ∧ row.familyId ≠ familyId := by
  simp [deleteFamily]

theorem mem_deleteExpired {tokens : RefreshTokens} {now : Int} {row : RefreshToken} :
    row ∈ tokens.deleteExpired now ↔ row ∈ tokens ∧ now < row.expiresAt := by
  simp [deleteExpired, RefreshToken.isExpired]

end RefreshTokens

namespace SessionEnv

variable {env : SessionEnv} {world : SessionWorld}

-- What one call can do to the stored tokens: drop some, add the inserted one,
-- or mark those with one id.
theorem mem_handle_tokens (request : SessionCall) {row : RefreshToken}
    (h : row ∈ (env.handle request world).2.tokens) :
    row ∈ world.tokens ∨ request = .insert row ∨
      ∃ at_, ∃ old ∈ world.tokens, request = .markConsumed old.id at_ ∧
        row = { old with consumedAt := some at_ } := by
  cases request with
  | utcNow | newUuid | newPlaintext => exact Or.inl h
  | findUserByEmail _ | findByHash _ | recordEvent _ | issueToken _ =>
      simp only [handle, attempt] at h
      split at h <;> exact Or.inl h
  | insert token =>
      simp only [handle, attempt] at h
      split at h
      · exact Or.inl h
      · rcases RefreshTokens.mem_insert h with rfl | h
        · exact Or.inr (Or.inl rfl)
        · exact Or.inl h
  | markConsumed id at_ =>
      simp only [handle, attempt] at h
      split at h
      · exact Or.inl h
      · obtain ⟨old, hold, rfl⟩ := RefreshTokens.mem_markConsumed.mp h
        by_cases hid : old.id = id
        · exact Or.inr (Or.inr ⟨at_, old, hold, by rw [hid], by simp [hid]⟩)
        · exact Or.inl (by simpa [hid] using hold)
  | delete id =>
      simp only [handle, attempt] at h
      split at h
      · exact Or.inl h
      · exact Or.inl (RefreshTokens.mem_delete.mp h).1
  | deleteFamily familyId =>
      simp only [handle, attempt] at h
      split at h
      · exact Or.inl h
      · exact Or.inl (RefreshTokens.mem_deleteFamily.mp h).1
  | deleteExpired now =>
      simp only [handle, attempt] at h
      split at h
      · exact Or.inl h
      · exact Or.inl (RefreshTokens.mem_deleteExpired.mp h).1

theorem handle_findByHash {hash : String} {token : RefreshToken}
    (h : (env.handle (.findByHash hash) world).1 = .ok (some token)) :
    token ∈ world.tokens ∧ token.tokenHash = hash := by
  simp only [handle, attempt] at h
  split at h
  · cases h
  · exact RefreshTokens.findByHash_eq_some (Except.ok.inj h)

theorem handle_markConsumed {id : Uuid} {at_ : Int} {row : RefreshToken}
    (hok : (env.handle (.markConsumed id at_) world).1 = .ok ())
    (h : row ∈ (env.handle (.markConsumed id at_) world).2.tokens) (hid : row.id = id) :
    row.consumedAt = some at_ := by
  simp only [handle, attempt] at hok h
  split at h
  · rename_i e he
    simp [he] at hok
  · obtain ⟨old, hold, rfl⟩ := RefreshTokens.mem_markConsumed.mp h
    split
    · rfl
    · rename_i hne
      simp [hne] at hid

theorem handle_deleteFamily {familyId : Uuid} {row : RefreshToken}
    (hok : (env.handle (.deleteFamily familyId) world).1 = .ok ())
    (h : row ∈ (env.handle (.deleteFamily familyId) world).2.tokens) :
    row.familyId ≠ familyId := by
  simp only [handle, attempt] at hok h
  split at h
  · rename_i e he
    simp [he] at hok
  · exact (RefreshTokens.mem_deleteFamily.mp h).2

end SessionEnv

-- Concrete surroundings, to run the use cases in: SHA-256 on the plaintexts
-- that occur, a clock that advances a millisecond a reading, no failing port.
namespace Sample

def entropy : String := "7d0c9f4ab35e4c61a8d2f1e09b7743c25f1a6e8d04b94e2c83f7a1d56c90"

def plaintext (n : Nat) : String := entropy ++ toString (1000 + n)

def node : String := "3f2504e0-4f89-41d3-9a0c-0305e82c"

def uuid (n : Nat) : Uuid := ⟨node ++ toString (1000 + n)⟩

-- The plaintext behind the token that `world` stores.
def presented : String := "0f8b1c6de2a34975b60c4e9d7a1238f5c4d95e0761fa4b3882e6a0b97d3c1f42"

def sha256 (text : String) : String :=
  if text = presented then "e5b0f46008d3e479e67326de2af00b7cd9aa5f72e3658cf5c05ae2c606a61efc"
  else if text = plaintext 0 then "c62d722756e509f703494ae40f548066df0559b7507b1fd322a2b26bafb4d1ef"
  else if text = plaintext 1 then "64bf48625c2c1f4cb49e46261ec183a67c510e009739347de2fbe32806ac7b61"
  else if text = plaintext 2 then "81d3038ccbd4361c9483072cbb4b31d83e070ed7f50d39491e8135b39c6fa15c"
  else "sha256:" ++ text

-- "correct horse" with the salt "boilerplate-salt".
def passwordHash : String :=
  "$argon2id$v=19$m=19456,t=2,p=1$Ym9pbGVycGxhdGUtc2FsdA$sgni71pP8DoKytGcKJdpj42ww2UWzGk/shuurGRvjVc"

def prims : Primitives where
  sha256 := sha256
  verify password hash := password = "correct horse" ∧ hash = passwordHash
  toLowercase text := String.ofList (text.toList.map Char.toLower)

def clock (n : Nat) : Int := 1767225600000000000 + 1000000 * n

def env (adapter : Adapter) : SessionEnv where
  adapter := adapter
  clock := clock
  uuid := uuid
  plaintext := plaintext
  accessToken userId := "token-for:" ++ userId.text
  fault _ := none

def user : User where
  id := ⟨"8a6e0804-2bd0-4672-b79d-d97027f9071a"⟩
  email := "ada@example.org"
  passwordHash := passwordHash
  createdAt := 1767225600000000000

def token : RefreshToken where
  id := ⟨"b2c8e1f7-6a4d-4c39-8f0e-51d7a9c3e264"⟩
  userId := user.id
  familyId := ⟨"1d4f7b90-83ce-4a25-b6e1-c09f5d2a7e38"⟩
  tokenHash := sha256 presented
  expiresAt := 1767225600000000000 + Duration.days 30
  createdAt := 1767225600000000000
  consumedAt := none

def world : SessionWorld where
  users := Table.empty.insert user
  tokens := Table.empty.insert token
  events := []
  calls := 0
  readings := 0
  uuids := 0
  plaintexts := 0

theorem plaintext_injective : Function.Injective plaintext := by
  intro a b h
  have h := toString_injective (String.append_right_inj _ |>.mp h)
  omega

theorem plaintext_ne_presented (n : Nat) : plaintext n ≠ presented :=
  append_ne (by decide : entropy.toList.head? = some '7') (by decide) _

theorem sha256_injective : Function.Injective sha256 := by
  intro a b h
  have hother : ∀ x digest : String, digest.toList.head? ≠ some 's' → "sha256:" ++ x ≠ digest :=
    fun x digest hd => append_ne (by decide) hd x
  unfold sha256 at h
  split_ifs at h
  all_goals first
    | (subst_vars; rfl)
    | exact absurd h (by decide)
    | exact absurd h (hother _ _ (by decide))
    | exact absurd h.symm (hother _ _ (by decide))
    | exact (String.append_right_inj _).mp h

theorem uuid_injective : Function.Injective uuid := by
  intro a b h
  have h := toString_injective (String.append_right_inj _ |>.mp (Uuid.mk.inj h))
  omega

theorem uuid_ne_token (n : Nat) : uuid n ≠ token.id := by
  intro h
  exact append_ne (by decide : node.toList.head? = some '3') (by decide) _ (Uuid.mk.inj h)

end Sample

end AgentBoilerplate.Session
