import FileMarket.Proofs.Wire.Records
import FileMarket.Wire.Wallet

/-!
# Wallets read from values

A wallet that has been read is portable (`isPortable_of_walletOfJson`): every attribute that is
taken keeps it so, on the way through an object as on that through an array, be it of values or of a
text (`isPortable_of_walletOfDocument`). A portable wallet is read back from what is written for it
(`walletOfJson_walletToJson`).
-/

set_option autoImplicit false

namespace FileMarket

open Wire

/-- A wallet whose balances are as reading leaves them: both finite, the pending one not
negative. -/
structure Wallet.IsPortable (wallet : Wallet) : Prop where
  current : wallet.current.isFinite = true
  pending : wallet.pending.isAmount = true

namespace Wire

/-! ## Attributes -/

theorem balance?_real {x : Binary64} (h : x.isFinite = true) :
    balance? (.number (.real x)) = .ok x :=
  if_pos h

/-- What is read as a balance is finite. -/
theorem isFinite_of_balance? {value : Json} {x : Binary64} (h : balance? value = .ok x) :
    x.isFinite = true := by
  unfold balance? at h
  split at h
  · split at h
    · rename_i hfinite
      rw [← Except.ok.inj h]
      exact hfinite
    · cases h
  · split at h
    · rename_i hfound
      rw [← Except.ok.inj h]
      exact (Option.filter_eq_some_iff.1 hfound).2
    · cases h
  · cases h

/-- An amount, for which nothing is read as zero. -/
theorem isAmount_getD_amount? (value : Json) : ((amount? value).getD .zero).isAmount = true := by
  cases h : amount? value with
  | none => rfl
  | some x => exact isAmount_of_amount? h

/-! ## Drafts -/

namespace WalletDraft

theorem isPortable_empty : empty.wallet.IsPortable := ⟨rfl, rfl⟩

section Step

variable {draft draft' : WalletDraft}

theorem isPortable_of_set {field : WalletField} {value : Json} (h : draft.wallet.IsPortable)
    (hset : draft.set field value = .ok draft') : draft'.wallet.IsPortable := by
  cases field with
  | address =>
    cases value <;> cases hset <;> exact ⟨h.current, h.pending⟩
  | current =>
    obtain ⟨x, hx, hput⟩ := bind_eq_ok_iff.1 hset
    cases hput
    exact ⟨isFinite_of_balance? hx, h.pending⟩
  | pending =>
    cases hset
    exact ⟨h.current, isAmount_getD_amount? value⟩

theorem isPortable_of_take {key : String} {value : Option Json} (h : draft.wallet.IsPortable)
    (htake : draft.take key value = .ok draft') : draft'.wallet.IsPortable := by
  unfold take at htake
  split at htake
  · cases htake
    exact h
  · split at htake
    · cases htake
    · split at htake
      · cases htake
      · exact isPortable_of_set h htake

end Step

/-- Pairs taken one after the other keep a wallet portable. -/
theorem isPortable_of_foldlM {α : Type} (key : α → String) (value? : α → Option Json)
    {draft draft' : WalletDraft} {fields : List α} (h : draft.wallet.IsPortable)
    (hfold : fields.foldlM (fun draft field => draft.take (key field) (value? field)) draft =
      .ok draft') : draft'.wallet.IsPortable := by
  induction fields generalizing draft with
  | nil =>
    cases hfold
    exact h
  | cons field rest ih =>
    obtain ⟨next, htake, hrest⟩ := bind_eq_ok_iff.1 hfold
    exact ih (isPortable_of_take h htake) hrest

theorem isPortable_of_takeItems {draft draft' : WalletDraft}
    {items : List (WalletField × Option Json)} (h : draft.wallet.IsPortable)
    (hitems : draft.takeItems items = .ok draft') : draft'.wallet.IsPortable := by
  induction items generalizing draft with
  | nil =>
    cases hitems
    exact h
  | cons item rest ih =>
    obtain ⟨field, value⟩ := item
    cases value with
    | none => cases hitems
    | some value =>
      obtain ⟨next, hset, hrest⟩ := bind_eq_ok_iff.1 hitems
      exact ih (isPortable_of_set h hset) hrest

/-- The key of a field that has not been seen sets that field. -/
theorem foldlM_take_key {draft next : WalletDraft} {field : WalletField} {value : Json}
    (hnew : field ∉ draft.seen) (hset : draft.set field value = .ok next)
    (rest : List (String × Json)) :
    ((field.key, value) :: rest).foldlM
        (fun draft (key, value) => draft.take key (some value)) draft =
      rest.foldlM (fun draft (key, value) => draft.take key (some value)) next := by
  have hkey : WalletField.ofKey? field.key = some field := by cases field <;> rfl
  have htake : draft.take field.key (some value) = .ok next := by
    unfold take
    rw [hkey, ← hset]
    exact if_neg hnew
  rw [List.foldlM_cons]
  dsimp only
  rw [htake]
  rfl

end WalletDraft

/-! ## Values -/

theorem wallet_of_finish {draft : WalletDraft} {wallet : Wallet}
    (h : draft.finish = .ok wallet) : draft.wallet = wallet := by
  unfold WalletDraft.finish at h
  split at h
  · exact Except.ok.inj h
  · cases h

theorem isPortable_of_walletOfItems {items : List (Option Json)} {closed : Bool} {wallet : Wallet}
    (h : walletOfItems items closed = .ok wallet) : wallet.IsPortable := by
  obtain ⟨draft, hitems, hfinish⟩ := bind_eq_ok_iff.1 h
  split at hfinish
  · cases hfinish
    exact WalletDraft.isPortable_of_takeItems WalletDraft.isPortable_empty hitems
  · cases hfinish

/-- What is read from a value is portable. -/
theorem isPortable_of_walletOfJson {value : Json} {wallet : Wallet}
    (h : walletOfJson value = .ok wallet) : wallet.IsPortable := by
  cases value with
  | object fields =>
    obtain ⟨draft, hfold, hfinish⟩ := bind_eq_ok_iff.1 h
    rw [← wallet_of_finish hfinish]
    exact WalletDraft.isPortable_of_foldlM Prod.fst (fun field => some field.2)
      WalletDraft.isPortable_empty hfold
  | array items => exact isPortable_of_walletOfItems h
  | null | bool | number | text => cases h

/-- So is what is read from a text along its structure. -/
theorem isPortable_of_walletOfDocument {depth : Nat} {document : Document} {wallet : Wallet}
    (h : walletOfDocument depth document = .ok wallet) : wallet.IsPortable := by
  cases document with
  | object fields closed =>
    obtain ⟨draft, hfold, hfinish⟩ := bind_eq_ok_iff.1 h
    cases closed with
    | false => cases hfinish
    | true =>
      rw [← wallet_of_finish hfinish]
      exact WalletDraft.isPortable_of_foldlM Prod.fst (fun field => Document.value? (depth - 1) field.2)
        WalletDraft.isPortable_empty hfold
  | array items closed => exact isPortable_of_walletOfItems h
  | null | bool | number | text | broken => cases h

/-- A portable wallet is read back as it was. -/
theorem walletOfJson_walletToJson {wallet : Wallet} (h : wallet.IsPortable) :
    walletOfJson (walletToJson wallet) = .ok wallet := by
  obtain ⟨address, current, pending⟩ := wallet
  have hcurrent (draft : WalletDraft) : draft.set .current (.number (.real current)) =
      .ok ⟨.current :: draft.seen, { draft.wallet with current := current }⟩ := by
    simp only [WalletDraft.set, balance?_real h.current, bind, Except.bind]
  have hpending (draft : WalletDraft) : draft.set .pending (.number (.real pending)) =
      .ok ⟨.pending :: draft.seen, { draft.wallet with pending := pending }⟩ := by
    simp only [WalletDraft.set, amount?_real h.pending, Option.getD_some]
  cases address with
  | none =>
    simp only [walletOfJson, walletToJson, Option.map_none, Option.toList_none, List.nil_append]
    rw [WalletDraft.foldlM_take_key (by decide) (hcurrent _),
      WalletDraft.foldlM_take_key (by simp [WalletDraft.empty]) (hpending _)]
    rfl
  | some s =>
    have haddress : WalletDraft.empty.set .address (.text s) =
        .ok ⟨[.address], { WalletDraft.empty.wallet with address := some s }⟩ := rfl
    simp only [walletOfJson, walletToJson, Option.map_some, Option.toList_some,
      List.singleton_append]
    rw [WalletDraft.foldlM_take_key (by decide) haddress,
      WalletDraft.foldlM_take_key (by simp) (hcurrent _),
      WalletDraft.foldlM_take_key (by simp) (hpending _)]
    rfl

end Wire

end FileMarket
