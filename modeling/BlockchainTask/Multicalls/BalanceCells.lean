import BlockchainTask.Multicalls.BatchSafety
import Mathlib.Data.List.Nodup

/-! # The cells of a batch of balances

The balances of all users in all tokens are written row by row into one array: the
cell of a user and a token is the token's index behind the rows of the users
before. Every cell of the array is written once, and holds the balance of its own
user in its own token, exactly when every balance that is asked of a token
decodes; else there is no array at all. -/
namespace BlockchainTask.Multicalls.BalanceCells
open BlockchainTask.Library.Effect BlockchainTask.Library.IndexedLoop
open BlockchainTask.Multicalls.BatchSafety BlockchainTask.Multicalls.MultiCall

variable {cells : ℕ → ℕ → Chain} {users tokens : List Address}

/-- The batch of balances, with a note of the cells that it writes. -/
def writtenBalances (cells : ℕ → ℕ → Chain) (users tokens : List Address) :
    Except Revert (List ℕ × List ℕ) :=
  forIndex (fun i user => forIndex
      (noting (assign .outOfBounds (fun j token => balanceOfUser (cells i j) user token)
        fun j => j + tokens.length * i) fun j => [j + tokens.length * i]) 0 tokens)
    0 users (List.replicate (tokens.length * users.length) 0, [])

/-- An array with the balances in their cells, each of them written once. -/
structure Filled (cells : ℕ → ℕ → Chain) (users tokens : List Address)
    (balances written : List ℕ) : Prop where
  length : balances.length = users.length * tokens.length
  cell : ∀ i user, users[i]? = some user → ∀ j token, tokens[j]? = some token →
    balances[j + tokens.length * i]? = some (userBalance (cells i j) user token)
  inside : ∀ k ∈ written, k < balances.length
  once : ∀ k < balances.length, written.count k = 1

/-- What was asked of a token decodes, for every user and every token. -/
def AllDecode (cells : ℕ → ℕ → Chain) (users tokens : List Address) : Prop :=
  ∀ i user, users[i]? = some user → ∀ j token, tokens[j]? = some token →
    BalanceDecodes (cells i j) user token

/-- The balances, row by row. -/
def balanceRows (cells : ℕ → ℕ → Chain) (users tokens : List Address) : List (List ℕ) :=
  users.mapIdx fun i user => tokens.mapIdx fun j token => userBalance (cells i j) user token

/-- All cells are written, from the first one to the last one. -/
theorem writtenBalances_eq (cells : ℕ → ℕ → Chain) (users tokens : List Address) :
    writtenBalances cells users tokens = (getBatchERC20Balances cells users tokens).map
      fun balances => (balances, List.range (tokens.length * users.length)) := by
  rw [writtenBalances, getBatchERC20Balances, forIndex_noting_rows, rows_eq_range]

/-- A batch that returns asked for balances that decode. -/
theorem allDecode_of_ok {balances : List ℕ}
    (h : getBatchERC20Balances cells users tokens = .ok balances) : AllDecode cells users tokens := by
  rw [getBatchERC20Balances, fillRows_eq_mapIndex] at h
  intro i user hi j token hj
  obtain ⟨rows, hrows, _⟩ := Eff.except_bind_eq_ok.mp
    (show (mapIndex _ 0 users >>= fun rows => .ok rows.flatten) = _ from h)
  obtain ⟨row, hrow⟩ := exists_of_mapIndex hrows hi
  obtain ⟨balance, hbalance⟩ := exists_of_mapIndex hrow hj
  exact (balanceOfUser_eq_ok_iff.mp hbalance).1

theorem length_of_mem_balanceRows {row : List ℕ} (h : row ∈ balanceRows cells users tokens) :
    row.length = tokens.length := by
  obtain ⟨i, hi, rfl⟩ := List.getElem_of_mem h
  simp [balanceRows]

/-- The rows have their balances in the cells. -/
theorem filled_balanceRows (cells : ℕ → ℕ → Chain) (users tokens : List Address) :
    Filled cells users tokens (balanceRows cells users tokens).flatten
      (List.range (tokens.length * users.length)) := by
  have hrows : ∀ row ∈ balanceRows cells users tokens, row.length = tokens.length :=
    fun row => length_of_mem_balanceRows
  have hlength : (balanceRows cells users tokens).flatten.length =
      users.length * tokens.length := by
    rw [length_flatten_of_rows hrows]
    simp [balanceRows]
  refine ⟨hlength, ?_, ?_, ?_⟩
  · intro i user hi j token hj
    have hrow : (balanceRows cells users tokens)[i]? =
        some (tokens.mapIdx fun j token => userBalance (cells i j) user token) := by
      simp [balanceRows, hi]
    exact getElem?_flatten_of_rows hrows hrow (by simp [hj])
  · intro k hk
    rw [hlength, Nat.mul_comm]
    exact List.mem_range.mp hk
  · intro k hk
    rw [hlength, Nat.mul_comm] at hk
    exact List.count_eq_one_of_mem List.nodup_range (List.mem_range.mpr hk)

/-- For all users and tokens: there is an array with every balance in its cell,
each cell written once, exactly when all that is asked of the tokens decodes. -/
theorem filled_iff : (∃ balances written,
      writtenBalances cells users tokens = .ok (balances, written) ∧
        getBatchERC20Balances cells users tokens = .ok balances ∧
          Filled cells users tokens balances written) ↔
    AllDecode cells users tokens := by
  constructor
  · rintro ⟨balances, _, _, hbalances, _⟩
    exact allDecode_of_ok hbalances
  · intro h
    have hbalances : getBatchERC20Balances cells users tokens =
        .ok (balanceRows cells users tokens).flatten := balances_eq_ok_iff.mpr h
    refine ⟨_, _, ?_, hbalances, filled_balanceRows cells users tokens⟩
    rw [writtenBalances_eq, hbalances]
    rfl

/-- The balances of one user, in the order of the tokens. -/
theorem balances_of_single {chain : Chain} {user : Address} {tokens : List Address}
    (h : ∀ token ∈ tokens, BalanceDecodes chain user token) :
    getBatchERC20Balances (fun _ _ => chain) [user] tokens =
      .ok (tokens.map (userBalance chain user)) := by
  have hall : AllDecode (fun _ _ => chain) [user] tokens := by
    intro i u hi j token hj
    obtain rfl : u = user := List.mem_singleton.mp (List.mem_of_getElem? hi)
    exact h token (List.mem_of_getElem? hj)
  have hrow : (tokens.mapIdx fun _ token => userBalance chain user token) =
      tokens.map (userBalance chain user) := List.ext_getElem (by simp) fun i _ _ => by simp
  rw [balances_eq_ok_iff.mpr hall, ← hrow]
  simp

end BlockchainTask.Multicalls.BalanceCells
