import CasualGame.Relay.TcpMessage

/-!
The ids of client connections, `|32 bits time|8 bits gateway num|24 bits counter|`, as a
gateway makes them and as they are read.
-/

namespace CasualGame.Sessions.ConnectionIds

open Relay

def MAX_CLIENT_COUNTER : UInt32 := 0xffffff

/-- What `ClientManager` has to make ids from. The bound of the counter is not looked at. -/
structure ClientManager where
  pid : ProcessId
  clientCounter : UInt32 := 1

/-- The fields of the id are put together as they are, the counter with all of its bits. -/
def ClientManager.createNewClient (m : ClientManager) (now : UInt64) : UInt64 × ClientManager :=
  let processNum := m.pid.num
  let counter := m.clientCounter
  ((now <<< 32) ||| (processNum <<< 24).toUInt64 ||| counter.toUInt64,
    { m with clientCounter := counter + 1 })

/-- A new client of a gateway that has made one at each of the times before. -/
structure Creation where
  pid : ProcessId
  earlier : List UInt64
  now : UInt64

namespace Creation

variable (x : Creation)

def manager : ClientManager :=
  x.earlier.foldl (fun m now => (m.createNewClient now).2) { pid := x.pid }

def ccid : UInt64 := (x.manager.createNewClient x.now).1

def counter : UInt32 := x.manager.clientCounter

/-- A time of 32 bits, and a gateway of the numbers that there are. -/
structure Valid : Prop where
  now : x.now.toNat < 2 ^ 32
  num_pos : 1 ≤ x.pid.num.toNat
  num_le : x.pid.num.toNat ≤ 255

/-- What of the counter spills into the byte of the gateway is there anyway. -/
def Contained : Prop := x.pid.num ||| (x.counter >>> 24) = x.pid.num

instance : Decidable x.Contained := inferInstanceAs (Decidable (_ = _))

end Creation

def timeOf (ccid : UInt64) : UInt64 := ccid >>> 32

def gatewayNumOf (ccid : UInt64) : UInt64 := (ccid >>> 24) &&& 0xff

def counterOf (ccid : UInt64) : UInt64 := ccid &&& 0xffffff

/-- The id says which gateway has made it, and when. -/
def Decodes (x : Creation) : Prop :=
  gatewayNumOf x.ccid = x.pid.num.toUInt64 ∧ timeOf x.ccid = x.now

/-- Both ids can be read, and they differ unless gateway, time and counter agree. -/
def Distinguishes (x y : Creation) : Prop :=
  Decodes x ∧ Decodes y ∧
    (x.ccid = y.ccid → x.pid.num = y.pid.num ∧ x.now = y.now ∧
      x.counter.toNat % 2 ^ 24 = y.counter.toNat % 2 ^ 24)

section Fields

variable {x y : Creation} {m : ClientManager}

theorem toNat_ccid (h : x.Valid) :
    x.ccid.toNat = (x.now.toNat <<< 32 ||| x.pid.num.toNat <<< 24) ||| x.counter.toNat := by
  have hpid : ∀ (earlier : List UInt64) (m : ClientManager),
      (earlier.foldl (fun m now => (m.createNewClient now).2) m).pid = m.pid := by
    intro earlier
    induction earlier with
    | nil => exact fun m => rfl
    | cons now earlier ih => exact fun m => ih _
  have hnow : (x.now <<< 32).toNat = x.now.toNat <<< 32 := by
    rw [UInt64.toNat_shiftLeft]
    change x.now.toNat <<< 32 % 2 ^ 64 = _
    have := h.now
    rw [Nat.shiftLeft_eq]
    omega
  have hnum : (x.pid.num <<< 24).toNat = x.pid.num.toNat <<< 24 := by
    rw [UInt32.toNat_shiftLeft]
    change x.pid.num.toNat <<< 24 % 2 ^ 32 = _
    have := h.num_le
    rw [Nat.shiftLeft_eq]
    omega
  change (_ ||| (x.manager.pid.num <<< 24).toUInt64 ||| x.counter.toUInt64).toNat = _
  rw [Creation.manager, hpid, UInt64.toNat_or, UInt64.toNat_or, hnow, UInt32.toNat_toUInt64, hnum,
    UInt32.toNat_toUInt64]

theorem counter_shiftRight (x : Creation) : x.counter.toNat >>> 32 = 0 := by
  rw [Nat.shiftRight_eq_div_pow]
  exact Nat.div_eq_of_lt x.counter.toNat_lt

theorem toNat_timeOf (h : x.Valid) : (timeOf x.ccid).toNat = x.now.toNat := by
  have hnum : x.pid.num.toNat <<< 24 >>> 32 = 0 := by
    rw [Nat.shiftLeft_eq, Nat.shiftRight_eq_div_pow]
    have := h.num_le
    omega
  rw [timeOf, UInt64.toNat_shiftRight, toNat_ccid h]
  change _ >>> 32 = _
  rw [Nat.shiftRight_or_distrib, Nat.shiftRight_or_distrib, Nat.shiftLeft_shiftRight, hnum,
    counter_shiftRight, Nat.or_zero, Nat.or_zero]

/-- The byte of the gateway takes in the upper bits of the counter. -/
theorem toNat_gatewayNumOf (h : x.Valid) :
    (gatewayNumOf x.ccid).toNat = x.pid.num.toNat ||| x.counter.toNat >>> 24 := by
  rw [gatewayNumOf, UInt64.toNat_and, UInt64.toNat_shiftRight, toNat_ccid h]
  change (_ >>> 24) &&& (2 ^ 8 - 1) = _
  rw [Nat.and_two_pow_sub_one_eq_mod]
  have hnum : x.pid.num.toNat < 2 ^ 8 := Nat.lt_succ_of_le h.num_le
  have hcounter : x.counter.toNat >>> 24 < 2 ^ 8 := by
    rw [Nat.shiftRight_eq_div_pow]
    have := x.counter.toNat_lt
    omega
  apply Nat.eq_of_testBit_eq
  intro i
  rw [Nat.testBit_mod_two_pow, Nat.testBit_shiftRight, Nat.testBit_or, Nat.testBit_or,
    Nat.testBit_shiftLeft, Nat.testBit_shiftLeft, Nat.testBit_or, Nat.testBit_shiftRight]
  by_cases hi : i < 8
  · rw [decide_eq_true hi, decide_eq_false (by omega : ¬ 24 + i ≥ 32),
      decide_eq_true (by omega : 24 + i ≥ 24), Nat.add_sub_cancel_left, Bool.true_and,
      Bool.false_and, Bool.false_or, Bool.true_and]
  · have hpower : 2 ^ 8 ≤ 2 ^ i := Nat.pow_le_pow_right (by decide) (by omega)
    rw [← Nat.testBit_shiftRight, Nat.testBit_lt_two_pow (hnum.trans_le hpower),
      Nat.testBit_lt_two_pow (hcounter.trans_le hpower), decide_eq_false hi]
    rfl

theorem toNat_counterOf (h : x.Valid) :
    (counterOf x.ccid).toNat = x.counter.toNat % 2 ^ 24 := by
  rw [counterOf, UInt64.toNat_and, toNat_ccid h]
  change _ &&& (2 ^ 24 - 1) = _
  rw [Nat.and_two_pow_sub_one_eq_mod, Nat.or_mod_two_pow, Nat.or_mod_two_pow, Nat.shiftLeft_eq,
    Nat.shiftLeft_eq]
  have hnow : x.now.toNat * 2 ^ 32 % 2 ^ 24 = 0 := by omega
  have hnum : x.pid.num.toNat * 2 ^ 24 % 2 ^ 24 = 0 := Nat.mul_mod_left ..
  rw [hnow, hnum, Nat.zero_or, Nat.zero_or]

theorem decodes_iff (h : x.Valid) : Decodes x ↔ x.Contained := by
  have htime : timeOf x.ccid = x.now := UInt64.toNat_inj.mp (toNat_timeOf h)
  rw [Decodes, and_iff_left htime, Creation.Contained, ← UInt64.toNat_inj, ← UInt32.toNat_inj,
    toNat_gatewayNumOf h, UInt32.toNat_toUInt64, UInt32.toNat_or, UInt32.toNat_shiftRight]
  rfl

theorem contained_of_le (h : x.counter ≤ MAX_CLIENT_COUNTER) : x.Contained := by
  have hlow : x.counter.toNat ≤ 2 ^ 24 - 1 := h
  have hzero : x.counter >>> 24 = 0 := by
    apply UInt32.toNat_inj.mp
    rw [UInt32.toNat_shiftRight]
    change x.counter.toNat >>> 24 = 0
    rw [Nat.shiftRight_eq_div_pow]
    omega
  rw [Creation.Contained, hzero, UInt32.or_zero]

/-- The ids of two clients can be read and told apart exactly when neither counter spills
into the byte of its gateway more than is there anyway. -/
theorem distinguishes_iff (hx : x.Valid) (hy : y.Valid) :
    Distinguishes x y ↔ x.Contained ∧ y.Contained := by
  rw [Distinguishes, decodes_iff hx, decodes_iff hy]
  refine and_congr_right fun hxc => and_iff_left_of_imp fun hyc heq => ?_
  obtain ⟨hxnum, hxtime⟩ := (decodes_iff hx).mpr hxc
  obtain ⟨hynum, hytime⟩ := (decodes_iff hy).mpr hyc
  refine ⟨?_, ?_, ?_⟩
  · have hnum : x.pid.num.toUInt64 = y.pid.num.toUInt64 := by rw [← hxnum, ← hynum, heq]
    have htoNat := congrArg UInt64.toNat hnum
    rw [UInt32.toNat_toUInt64, UInt32.toNat_toUInt64] at htoNat
    exact UInt32.toNat_inj.mp htoNat
  · rw [← hxtime, ← hytime, heq]
  · rw [← toNat_counterOf hx, ← toNat_counterOf hy, heq]

/-- The first client of a gateway. -/
def firstCreation (num : UInt32) (now : UInt64) : Creation := ⟨⟨1, num⟩, [], now⟩

theorem distinguishes_iff_first :
    Distinguishes (firstCreation 1 1500000000) (firstCreation 2 1500000000) ↔
      (firstCreation 1 1500000000).Contained ∧ (firstCreation 2 1500000000).Contained :=
  distinguishes_iff ⟨by decide, by decide, by decide⟩ ⟨by decide, by decide, by decide⟩

theorem counter_eq (x : Creation) : x.counter = UInt32.ofNat (x.earlier.length + 1) := by
  have hcounter : ∀ (earlier : List UInt64) (m : ClientManager),
      (earlier.foldl (fun m now => (m.createNewClient now).2) m).clientCounter =
        m.clientCounter + UInt32.ofNat earlier.length := by
    intro earlier
    induction earlier with
    | nil => exact fun m => (UInt32.add_zero _).symm
    | cons now earlier ih =>
        intro m
        refine (ih _).trans ?_
        change m.clientCounter + 1 + _ = _
        rw [List.length_cons, UInt32.add_assoc, Nat.add_comm, UInt32.ofNat_add]
        rfl
  rw [Creation.counter, Creation.manager, hcounter, Nat.add_comm, UInt32.ofNat_add]
  rfl

/-- After `2 ^ 24 - 1` clients the next one of gateway 2 seems to be of gateway 3. -/
theorem counter_spills :
    ¬ ∀ x y : Creation, x.Valid → y.Valid → Distinguishes x y := by
  intro hall
  obtain ⟨earlier, hlength⟩ : ∃ earlier : List UInt64, earlier.length = 2 ^ 24 - 1 :=
    ⟨_, List.length_replicate (a := 0)⟩
  have hnow : (1500000000 : UInt64).toNat < 2 ^ 32 := by decide
  have hpos : 1 ≤ (2 : UInt32).toNat := by decide
  have hle : (2 : UInt32).toNat ≤ 255 := by decide
  have hvalid : (⟨⟨1, 2⟩, earlier, 1500000000⟩ : Creation).Valid := ⟨hnow, hpos, hle⟩
  have hcounter := counter_eq ⟨⟨1, 2⟩, earlier, 1500000000⟩
  obtain ⟨hdecodes, -, -⟩ := hall _ _ hvalid hvalid
  have hcontained := (decodes_iff hvalid).mp hdecodes
  rw [Creation.Contained, hcounter] at hcontained
  change (2 : UInt32) ||| (UInt32.ofNat (earlier.length + 1) >>> 24) = 2 at hcontained
  rw [hlength] at hcontained
  exact absurd hcontained (by decide)

end Fields

end CasualGame.Sessions.ConnectionIds
