import Sentum.Nlohmann.Json
import Sentum.Std.Double

/-!
# The account reconciliation

`run` asks for the open orders and the account and compares the balance of the
base asset with the quantity that is held locally.  A part that is missing
from an answer is not an error: it counts as zero.  `success_iff` says which
answers are taken, `failClosed_iff` when a success means what the two answers
say.
-/

namespace Sentum.Execution

open Sentum Sentum.Std

structure ReconciliationReport where
  success : Bool := false
  openOrders : Int := 0
  balancesChecked : Nat := 0
  inconsistencies : Nat := 0
  details : String := ""
deriving DecidableEq

namespace AccountReconciler

/-- `std::stod(b.value(key, "0"))` -/
def parse (balance : Json) (key : String) : Except String Double := do
  match stodDouble (← balance.value Json.getString key "0") with
  | some x => return x
  | none => throw "stod"

/-- One entry: the free and the locked quantity after it. -/
def readBalance (baseAsset : String) (read : Double × Double) (balance : Json) :
    Except String (Double × Double) := do
  let asset ← balance.value Json.getString "asset" ""
  if asset = baseAsset then return (← parse balance "free", ← parse balance "locked") else return read

/-- The loop over the entries: how many it has come to, and what it has read
or the exception that has ended it. -/
def readBalances (baseAsset : String) (checked : Nat) (read : Double × Double) :
    List Json → Nat × Except String (Double × Double)
  | [] => (checked, .ok read)
  | balance :: rest =>
    match readBalance baseAsset read balance with
    | .error what => (checked + 1, .error what)
    | .ok read => readBalances baseAsset (checked + 1) read rest

def tolerance : Double := .finite (1 / 10 ^ 8)

/-- `static_cast<int>` of the size; anything but an array has none. -/
def countOrders (orders : Json) : Int :=
  match orders with
  | .array os => (os.length : Int).bmod (2 ^ 32)
  | _ => 0

def balancesOf (account : Json) : List Json :=
  match account.find? "balances" with
  | some balances => balances.elements
  | none => []

/-- What the exception handler makes of the report. -/
def caught (r : ReconciliationReport) (what : String) : ReconciliationReport :=
  { r with success := false, inconsistencies := r.inconsistencies + 1, details := what }

def compareQuantity (r : ReconciliationReport) (exchangeQty expected : Double) (baseAsset : String) :
    ReconciliationReport :=
  if tolerance.lt (exchangeQty.sub expected).abs then
    { r with
      inconsistencies := r.inconsistencies + 1
      details := "balance mismatch for " ++ baseAsset ++ ": local=" ++ expected.toString ++ " exchange=" ++
        exchangeQty.toString }
  else r

def compareOrders (r : ReconciliationReport) : ReconciliationReport :=
  if 1 < r.openOrders then
    { r with
      inconsistencies := r.inconsistencies + 1
      details := (if r.details = "" then r.details else r.details ++ "; ") ++
        "more than one open order for single-position runtime" }
  else r

def concluded (r : ReconciliationReport) : ReconciliationReport :=
  { r with success := r.inconsistencies = 0, details := if r.details = "" then "consistent" else r.details }

/-- `run`, on the answers to `open_orders` and `account` or what these throw. -/
def run (orders account : Except String Json) (expected : Double) (baseAsset : String) : ReconciliationReport :=
  match orders with
  | .error what => caught {} what
  | .ok orders =>
    let r : ReconciliationReport := { openOrders := countOrders orders }
    match account with
    | .error what => caught r what
    | .ok account =>
      match readBalances baseAsset 0 (.finite 0, .finite 0) (balancesOf account) with
      | (checked, .error what) => caught { r with balancesChecked := checked } what
      | (checked, .ok (free, locked)) =>
        concluded (compareOrders
          (compareQuantity { r with balancesChecked := checked } (free.add locked) expected baseAsset))

/-! ## What is taken -/

/-- The entry of the asset; an entry without a name has the empty one. -/
def names (asset : String) (balance : Json) : Bool :=
  (balance.value Json.getString "asset" "").toOption = some asset

/-- Reading the entry does not throw. -/
structure Readable (baseAsset : String) (balance : Json) : Prop where
  asset : (balance.value Json.getString "asset" "").isOk
  free : names baseAsset balance → (parse balance "free").isOk
  locked : names baseAsset balance → (parse balance "locked").isOk

def quantityOf (balance : Json) (key : String) : Double := (parse balance key).toOption.getD (.finite 0)

/-- The last entry of the asset counts, and zero where there is none. -/
def exchangeQuantity (baseAsset : String) (balances : List Json) : Double :=
  match (balances.filter (names baseAsset)).getLast? with
  | some balance => (quantityOf balance "free").add (quantityOf balance "locked")
  | none => .finite 0

section
variable {orders account : Except String Json} {expected : Double} {baseAsset : String} {balance : Json}
  {balances : List Json} {read : Double × Double}

theorem isOk_iff {α : Type} {x : Except String α} : x.isOk = true ↔ ∃ a, x = .ok a := by
  cases x with
  | error what => exact ⟨fun h => (by cases h), fun ⟨a, h⟩ => (by cases h)⟩
  | ok a => exact ⟨fun _ => ⟨a, rfl⟩, fun _ => rfl⟩

theorem parse_of_isOk {key : String} (h : (parse balance key).isOk = true) :
    parse balance key = .ok (quantityOf balance key) := by
  obtain ⟨x, hx⟩ := isOk_iff.mp h
  unfold quantityOf
  rw [hx]
  rfl

theorem error_of_not_isOk {α : Type} {x : Except String α} (h : ¬ x.isOk = true) : ∃ what, x = .error what := by
  cases x with
  | error what => exact ⟨what, rfl⟩
  | ok a => exact absurd rfl h

theorem readBalance_eq (h : Readable baseAsset balance) : readBalance baseAsset read balance =
    .ok (if names baseAsset balance then (quantityOf balance "free", quantityOf balance "locked") else read) := by
  obtain ⟨asset, hasset⟩ := isOk_iff.mp h.asset
  have hnames : names baseAsset balance = decide (asset = baseAsset) := by
    unfold names
    rw [hasset]
    exact decide_eq_decide.mpr Option.some_inj
  unfold readBalance
  rw [hasset, hnames]
  by_cases heq : asset = baseAsset
  · rw [heq, decide_eq_true rfl] at hnames
    simp only [bind, Except.bind, if_pos heq, decide_eq_true heq]
    rw [parse_of_isOk (h.free hnames), parse_of_isOk (h.locked hnames)]
    rfl
  · simp only [bind, Except.bind, if_neg heq, decide_eq_false heq]
    rfl

theorem readBalance_error (h : ¬ Readable baseAsset balance) :
    ∃ what, readBalance baseAsset read balance = .error what := by
  unfold readBalance
  by_cases hasset : (balance.value Json.getString "asset" "").isOk = true
  · obtain ⟨asset, hasset'⟩ := isOk_iff.mp hasset
    rw [hasset']
    by_cases heq : asset = baseAsset
    · simp only [bind, Except.bind, if_pos heq]
      by_cases hfree : (parse balance "free").isOk = true
      · have hlocked : ¬ (parse balance "locked").isOk = true :=
          fun hlocked => h ⟨hasset, fun _ => hfree, fun _ => hlocked⟩
        obtain ⟨what, hwhat⟩ := error_of_not_isOk hlocked
        rw [parse_of_isOk hfree, hwhat]
        exact ⟨what, rfl⟩
      · obtain ⟨what, hwhat⟩ := error_of_not_isOk hfree
        rw [hwhat]
        exact ⟨what, rfl⟩
    · -- an entry of another asset is not read on
      have hnot : ¬ names baseAsset balance = true := by
        unfold names
        rw [hasset']
        exact fun hn => heq (Option.some.inj (of_decide_eq_true hn))
      exact absurd ⟨hasset, fun hn => absurd hn hnot, fun hn => absurd hn hnot⟩ h
  · obtain ⟨what, hwhat⟩ := error_of_not_isOk hasset
    rw [hwhat]
    exact ⟨what, rfl⟩

/-- What the loop has read after its last entry. -/
def lastRead (baseAsset : String) (read : Double × Double) (balances : List Json) : Double × Double :=
  match (balances.filter (names baseAsset)).getLast? with
  | some balance => (quantityOf balance "free", quantityOf balance "locked")
  | none => read

theorem lastRead_cons (balance : Json) (balances : List Json) : lastRead baseAsset read (balance :: balances) =
    lastRead baseAsset
      (if names baseAsset balance then (quantityOf balance "free", quantityOf balance "locked") else read)
      balances := by
  unfold lastRead
  by_cases hn : names baseAsset balance = true
  · rw [List.filter_cons_of_pos hn, if_pos hn, List.getLast?_cons]
    cases (balances.filter (names baseAsset)).getLast? <;> rfl
  · rw [List.filter_cons_of_neg hn, if_neg hn]

/-- A loop over readable entries. -/
theorem readBalances_eq (checked : Nat) (h : ∀ balance ∈ balances, Readable baseAsset balance) :
    readBalances baseAsset checked read balances =
      (checked + balances.length, .ok (lastRead baseAsset read balances)) := by
  induction balances generalizing checked read with
  | nil => rfl
  | cons balance rest ih =>
    rw [readBalances, readBalance_eq (h balance List.mem_cons_self), lastRead_cons, List.length_cons]
    dsimp only
    rw [ih _ fun b hb => h b (List.mem_cons_of_mem _ hb), Nat.add_right_comm, Nat.add_assoc]

/-- An entry that is not readable ends it. -/
theorem readBalances_error (checked : Nat) (hmem : balance ∈ balances) (h : ¬ Readable baseAsset balance) :
    ∃ checked' what, readBalances baseAsset checked read balances = (checked', .error what) := by
  induction balances generalizing checked read with
  | nil => cases hmem
  | cons first rest ih =>
    rw [readBalances]
    by_cases hfirst : Readable baseAsset first
    · rw [readBalance_eq hfirst]
      rcases List.mem_cons.mp hmem with rfl | hmem
      · exact absurd hfirst h
      · exact ih _ hmem
    · have herror : ∃ what, readBalance baseAsset read first = .error what := readBalance_error hfirst
      obtain ⟨what, hwhat⟩ := herror
      rw [hwhat]
      exact ⟨checked + 1, what, rfl⟩

/-- The answers that `run` does not take. -/
inductive Rejected (orders account : Except String Json) (expected : Double) (baseAsset : String) : Prop
  | ordersThrow {what : String} (h : orders = .error what)
  | accountThrows {what : String} (h : account = .error what)
  | manyOrders {os : Json} (h : orders = .ok os) (hmany : 1 < countOrders os)
  | unreadable {a : Json} (h : account = .ok a) {balance : Json} (hmem : balance ∈ balancesOf a)
    (hread : ¬ Readable baseAsset balance)
  | mismatch {a : Json} (h : account = .ok a)
    (hfar : tolerance.lt ((exchangeQuantity baseAsset (balancesOf a)).sub expected).abs = true)

theorem exchangeQuantity_eq (baseAsset : String) (balances : List Json) :
    (lastRead baseAsset (.finite 0, .finite 0) balances).1.add
      (lastRead baseAsset (.finite 0, .finite 0) balances).2 = exchangeQuantity baseAsset balances := by
  unfold lastRead exchangeQuantity
  cases (balances.filter (names baseAsset)).getLast? with
  | none => exact congrArg Double.finite (add_zero 0)
  | some balance => rfl

theorem concluded_success (r : ReconciliationReport) (hr : r.inconsistencies = 0) (exchangeQty : Double) :
    (concluded (compareOrders (compareQuantity r exchangeQty expected baseAsset))).success = true ↔
      tolerance.lt (exchangeQty.sub expected).abs = false ∧ ¬ 1 < r.openOrders := by
  unfold concluded compareOrders compareQuantity
  cases tolerance.lt (exchangeQty.sub expected).abs <;> by_cases hmany : 1 < r.openOrders <;>
    simp [hmany, hr]

/-- `run`, when both answers have come. -/
theorem run_success_iff (os a : Json) : (run (.ok os) (.ok a) expected baseAsset).success = true ↔
    (∀ balance ∈ balancesOf a, Readable baseAsset balance) ∧
      tolerance.lt ((exchangeQuantity baseAsset (balancesOf a)).sub expected).abs = false ∧
        ¬ 1 < countOrders os := by
  unfold run
  dsimp only
  by_cases hread : ∀ balance ∈ balancesOf a, Readable baseAsset balance
  · rw [and_iff_right hread, readBalances_eq 0 hread]
    dsimp only
    rw [exchangeQuantity_eq]
    exact concluded_success _ rfl _
  · refine iff_of_false ?_ fun h => hread h.1
    simp only [not_forall] at hread
    obtain ⟨balance, hmem, hnot⟩ := hread
    have hends : ∃ checked what, readBalances baseAsset 0 (.finite 0, .finite 0) (balancesOf a) =
        (checked, .error what) := readBalances_error 0 hmem hnot
    obtain ⟨checked, what, herror⟩ := hends
    rw [herror]
    exact fun h => nomatch h

/-- **A success** is what is not rejected. -/
theorem success_iff : (run orders account expected baseAsset).success = true ↔
    ¬ Rejected orders account expected baseAsset := by
  cases horders : orders with
  | error what => exact iff_of_false (fun h => nomatch h) (not_not_intro (.ordersThrow rfl))
  | ok os =>
    cases haccount : account with
    | error what => exact iff_of_false (fun h => nomatch h) (not_not_intro (.accountThrows rfl))
    | ok a =>
      rw [run_success_iff]
      constructor
      · rintro ⟨hread, hnear, hfew⟩ hrejected
        cases hrejected with
        | ordersThrow h => cases h
        | accountThrows h => cases h
        | manyOrders h hmany =>
          cases h
          exact hfew hmany
        | unreadable h hmem hnot =>
          cases h
          exact hnot (hread _ hmem)
        | mismatch h hfar =>
          cases h
          rw [hnear] at hfar
          cases hfar
      · intro hnot
        refine ⟨fun balance hmem => ?_, ?_, fun hmany => hnot (.manyOrders rfl hmany)⟩
        · by_contra hread
          exact hnot (.unreadable rfl hmem hread)
        · exact Bool.eq_false_of_not_eq_true fun hfar => hnot (.mismatch rfl hfar)

/-! ## Fail-closed -/

/-- The balances name the asset once, with two decimals, and an asset in every entry. -/
def Holds (account : Json) (baseAsset : String) (free locked : Decimal) : Prop :=
  ∃ balances balance, account.find? "balances" = some (.array balances) ∧
    (∀ b ∈ balances, ∃ asset, b.find? "asset" = some (.string asset)) ∧
    balances.filter (names baseAsset) = [balance] ∧
    balance.find? "free" = some (.string (String.ofList free.text)) ∧
    balance.find? "locked" = some (.string (String.ofList locked.text))

/-- Nothing is missing from the two answers. -/
structure Complete (orders account : Json) (baseAsset : String) : Prop where
  /-- an array whose size an `int` holds -/
  orders : ∃ os, orders = .array os ∧ os.length < 2 ^ 31
  balances : ∃ free locked, Holds account baseAsset free locked

/-- What a success is to mean. -/
structure Consistent (orders account : Json) (expected : Double) (baseAsset : String) : Prop where
  orders : ∃ os, orders = .array os ∧ os.length ≤ 1
  balances : ∃ free locked q, Holds account baseAsset free locked ∧ expected = .finite q ∧
    |free.value + locked.value - q| ≤ 1 / 10 ^ 8

/-- The claim: a success means that both answers have come and are consistent. -/
def FailClosed (orders account : Except String Json) (expected : Double) (baseAsset : String) : Prop :=
  (run orders account expected baseAsset).success = true →
    ∃ os a, orders = .ok os ∧ account = .ok a ∧ Consistent os a expected baseAsset

theorem Consistent.complete {os a : Json} (h : Consistent os a expected baseAsset) : Complete os a baseAsset := by
  obtain ⟨xs, hxs, hle⟩ := h.orders
  obtain ⟨free, locked, q, hholds, -, -⟩ := h.balances
  exact ⟨⟨xs, hxs, by omega⟩, free, locked, hholds⟩

theorem bmod_of_lt {n : Nat} (h : n < 2 ^ 31) : (n : Int).bmod (2 ^ 32) = n :=
  Int.bmod_eq_of_le_mul_two (by omega) (by omega)

theorem countOrders_array {xs : List Json} (h : xs.length < 2 ^ 31) : countOrders (.array xs) = xs.length := by
  unfold countOrders
  dsimp only
  exact bmod_of_lt h

theorem parse_decimal {key : String} {d : Decimal}
    (h : balance.find? key = some (.string (String.ofList d.text))) (hok : (parse balance key).isOk = true) :
    quantityOf balance key = .finite d.value := by
  have hparse : parse balance key = match Double.ofRat d.value with
      | some x => .ok x
      | none => .error "stod" := by
    unfold parse
    rw [Json.value_of_find _ _ _ _ h]
    show (match stodDouble (String.ofList d.text) with
      | some x => pure x
      | none => throw "stod" : Except String Double) = _
    rw [d.stodDouble_text]
    rfl
  unfold quantityOf
  unfold Double.ofRat at hparse
  by_cases hrange : Double.inRange d.value
  · rw [if_pos hrange] at hparse
    rw [hparse]
    rfl
  · rw [if_neg hrange] at hparse
    rw [hparse] at hok
    cases hok

/-- Complete answers that are not rejected are consistent. -/
theorem Complete.consistent {os a : Json} (h : Complete os a baseAsset) (hnan : expected ≠ .nan)
    (hnot : ¬ Rejected (.ok os) (.ok a) expected baseAsset) : Consistent os a expected baseAsset := by
  obtain ⟨xs, rfl, hlt⟩ := h.orders
  obtain ⟨free, locked, balances, balance, hbalances, hassets, hone, hfree, hlocked⟩ := h.balances
  refine ⟨⟨xs, rfl, ?_⟩, ?_⟩
  · by_contra hmany
    refine hnot (.manyOrders rfl ?_)
    rw [countOrders_array hlt]
    omega
  · have hlist : balancesOf a = balances := by
      unfold balancesOf
      rw [hbalances]
      rfl
    have hmem : balance ∈ balances ∧ names baseAsset balance = true :=
      List.mem_filter.mp (hone ▸ List.mem_singleton_self balance)
    have hread : Readable baseAsset balance := by
      by_contra hread
      exact hnot (.unreadable rfl (hlist ▸ hmem.1) hread)
    have hquantity : exchangeQuantity baseAsset (balancesOf a) = .finite (free.value + locked.value) := by
      unfold exchangeQuantity
      rw [hlist, hone]
      show (quantityOf balance "free").add (quantityOf balance "locked") = _
      rw [parse_decimal hfree (hread.free hmem.2), parse_decimal hlocked (hread.locked hmem.2)]
      rfl
    have hnear : tolerance.lt ((exchangeQuantity baseAsset (balancesOf a)).sub expected).abs = false :=
      Bool.eq_false_of_not_eq_true fun hfar => hnot (.mismatch rfl hfar)
    rw [hquantity] at hnear
    cases expected with
    | finite q =>
      have hnot : ¬ 1 / 10 ^ 8 < |free.value + locked.value + -q| := of_decide_eq_false hnear
      refine ⟨free, locked, q, ⟨balances, balance, hbalances, hassets, hone, hfree, hlocked⟩, rfl, ?_⟩
      rw [sub_eq_add_neg]
      exact not_lt.mp hnot
    | infinite negative => cases hnear
    | nan => exact absurd rfl hnan

end

end AccountReconciler

end Sentum.Execution
