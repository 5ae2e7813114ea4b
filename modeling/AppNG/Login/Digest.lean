import AppNG.Lib.JavaInt
import AppNG.Lib.JavaString
import Mathlib.Algebra.Order.Group.Unbundled.Int
import Mathlib.Tactic.ByContra

/-!
# Login.Digest

`DigestUtil.getDigest` and `DigestValidator`.

* `validate_iff`: which digests are accepted, in terms of what the validator reads.
* `digest_conforms_iff`: a digest is judged by its four parts and the real time between client and
  server if and only if it has no separator behind its hash, and the time on the clocks of the
  server's zone, compared with a number of milliseconds that may have overflown, does not differ
  from the real time on the side of the limit it is.
-/

namespace AppNG
namespace Login

/-- What the digest rests on: the format `yyyyMMddHHmmss|XXX`, whose two halves are separate here,
and the hash function. An instant is a number of milliseconds. -/
structure DigestFormat where
  timestamp : Int → String
  utcOffset : Int → String
  parse : String → Option Int
  getMd5Digest : String → String

namespace DigestUtil

def getDigest (fmt : DigestFormat) (username sharedSecret : String) (date : Int) : String :=
  let digest := username ++ "|" ++ (fmt.timestamp date ++ "|" ++ fmt.utcOffset date) ++ "|"
  digest ++ fmt.getMd5Digest (digest ++ sharedSecret)

end DigestUtil

structure DigestValidator where
  maxOffsetMinutes : Int
  errors : Bool
  username : String
  timestamp : String
  utcOffset : String
  hashedPart : String

namespace DigestValidator

/-- The part, and whether it is an error. -/
def checkDigestPart (dp : String) : String × Bool :=
  if Java.isBlank (some dp) then ("", true) else (dp, false)

def new (digest : String) (maxOffsetMinutes : Int) : DigestValidator :=
  match Java.split '|' digest with
  | [username, timestamp, utcOffset, hashedPart] =>
    { maxOffsetMinutes
      errors := (checkDigestPart username).2 || (checkDigestPart timestamp).2 ||
        (checkDigestPart utcOffset).2 || (checkDigestPart hashedPart).2
      username := (checkDigestPart username).1
      timestamp := (checkDigestPart timestamp).1
      utcOffset := (checkDigestPart utcOffset).1
      hashedPart := (checkDigestPart hashedPart).1 }
  | _ =>
    { maxOffsetMinutes, errors := true, username := "", timestamp := "", utcOffset := "",
      hashedPart := "" }

/-- `zone` is the offset of the default time zone at an instant. -/
def validateTimestamp (zone : Int → Int) (validator : DigestValidator)
    (serverTime clientTime : Int) : Bool :=
  let serverOffset := zone serverTime
  let clientOffset := zone clientTime
  let diff := |(serverTime + serverOffset) - (clientTime + clientOffset)|
  let maxOffset := Java.wrap (1000 * 60 * validator.maxOffsetMinutes)
  diff ≤ maxOffset

def validateHashedPart (fmt : DigestFormat) (validator : DigestValidator)
    (sharedSecret : String) : Bool :=
  fmt.getMd5Digest (validator.username ++ "|" ++ validator.timestamp ++ "|" ++
    validator.utcOffset ++ "|" ++ sharedSecret) == validator.hashedPart

def validate (fmt : DigestFormat) (zone : Int → Int) (validator : DigestValidator)
    (serverTime : Int) (sharedSecret : String) : Bool :=
  if validator.errors then false
  else
    match fmt.parse (validator.timestamp ++ "|" ++ validator.utcOffset) with
    | none => false
    | some clientTime =>
      validator.validateTimestamp zone serverTime clientTime &&
        validator.validateHashedPart fmt sharedSecret

end DigestValidator

open DigestValidator

/-! ## What is accepted -/

/-- A part that is not blank and has no separator in it. -/
def IsPart (part : String) : Prop := Java.isBlank (some part) = false ∧ '|' ∉ part.toList

theorem IsPart.ne_empty {part : String} (h : IsPart part) : part ≠ "" := by
  rintro rfl
  exact absurd h.1 (by decide)

variable {fmt : DigestFormat} {zone : Int → Int} {digest secret username : String}
  {serverTime clientTime date m : Int}

/-- Four parts, the last of them the hash of the first three with the secret, and the instant that
the second and the third are. -/
structure Signed (fmt : DigestFormat) (secret username timestamp utcOffset hash : String)
    (clientTime : Int) : Prop where
  parts : ∀ part ∈ [username, timestamp, utcOffset] ++ [hash], IsPart part
  parsed : fmt.parse (timestamp ++ "|" ++ utcOffset) = some clientTime
  hashed : fmt.getMd5Digest (username ++ "|" ++ timestamp ++ "|" ++ utcOffset ++ "|" ++ secret) = hash

/-- The digest is the four parts, with separators behind them. -/
def Joined (digest username timestamp utcOffset hash : String) (trailing : Nat) : Prop :=
  digest.toList = ['|'].intercalate (([username, timestamp, utcOffset] ++ [hash]).map String.toList) ++
    List.replicate trailing '|'

/-- The time between the clocks of the zone is in the limit that is computed. -/
def OnClock (zone : Int → Int) (serverTime clientTime m : Int) : Prop :=
  |(serverTime + zone serverTime) - (clientTime + zone clientTime)| ≤ Java.wrap (1000 * 60 * m)

instance : Decidable (OnClock zone serverTime clientTime m) := inferInstanceAs (Decidable (_ ≤ _))

section Accepted

variable {timestamp utcOffset hash : String} {trailing : Nat}

theorem Signed.split (h : Signed fmt secret username timestamp utcOffset hash clientTime)
    (hd : Joined digest username timestamp utcOffset hash trailing) :
    Java.split '|' digest = [username, timestamp, utcOffset, hash] :=
  Java.split_join (h.parts hash (by simp)).ne_empty (fun part hpart => (h.parts part hpart).2) hd

theorem checkDigestPart_snd (part : String) :
    (checkDigestPart part).2 = Java.isBlank (some part) := by
  unfold checkDigestPart
  split
  · rename_i h; exact h.symm
  · rename_i h; simpa using h

theorem checkDigestPart_fst {part : String} (h : Java.isBlank (some part) = false) :
    (checkDigestPart part).1 = part := by
  rw [checkDigestPart, if_neg (by simp [h])]

/-- The parts of a validator without errors. -/
theorem new_errors_false (h : (DigestValidator.new digest m).errors = false) :
    ∃ username timestamp utcOffset hash trailing,
      Joined digest username timestamp utcOffset hash trailing ∧
        ∀ part ∈ [username, timestamp, utcOffset] ++ [hash], IsPart part := by
  unfold DigestValidator.new at h
  split at h
  · rename_i username timestamp utcOffset hash hsplit
    have hblank : ∀ part ∈ [username, timestamp, utcOffset] ++ [hash],
        Java.isBlank (some part) = false := by
      simp only [checkDigestPart_snd, Bool.or_eq_false_iff] at h
      simp [h]
    have hne : hash ≠ "" := by
      rintro rfl
      exact absurd (hblank "" (by simp)) (by decide)
    have hsplit : Java.split '|' digest = [username, timestamp, utcOffset] ++ [hash] := hsplit
    obtain ⟨hfree, trailing, hd⟩ := Java.of_split hne hsplit
    exact ⟨username, timestamp, utcOffset, hash, trailing, hd,
      fun part hpart => ⟨hblank part hpart, hfree part hpart⟩⟩
  · cases h

theorem new_of_parts (hparts : ∀ part ∈ [username, timestamp, utcOffset] ++ [hash], IsPart part)
    (hd : Joined digest username timestamp utcOffset hash trailing) :
    DigestValidator.new digest m =
      { maxOffsetMinutes := m, errors := false, username, timestamp, utcOffset,
        hashedPart := hash } := by
  have hblank : ∀ part ∈ [username, timestamp, utcOffset] ++ [hash],
      Java.isBlank (some part) = false := fun part hpart => (hparts part hpart).1
  have hsplit : Java.split '|' digest = [username, timestamp, utcOffset] ++ [hash] :=
    Java.split_join (hparts hash (by simp)).ne_empty (fun part hpart => (hparts part hpart).2) hd
  simp only [List.cons_append, List.nil_append, List.mem_cons, List.not_mem_nil, or_false,
    forall_eq_or_imp, forall_eq] at hblank
  obtain ⟨h₁, h₂, h₃, h₄⟩ := hblank
  simp only [DigestValidator.new, hsplit, List.cons_append, List.nil_append, checkDigestPart_snd,
    checkDigestPart_fst, h₁, h₂, h₃, h₄, Bool.or_self]

/-- A digest is accepted for its four parts, whatever separators follow them, and for its time on
the clock. -/
theorem validate_iff :
    (DigestValidator.new digest m).validate fmt zone serverTime secret = true ↔
      ∃ username timestamp utcOffset hash trailing clientTime,
        Joined digest username timestamp utcOffset hash trailing ∧
          Signed fmt secret username timestamp utcOffset hash clientTime ∧
          OnClock zone serverTime clientTime m := by
  constructor
  · intro h
    have herrors : (DigestValidator.new digest m).errors = false := by
      by_contra hne
      rw [validate, if_pos (by simpa using hne)] at h
      cases h
    obtain ⟨username, timestamp, utcOffset, hash, trailing, hd, hparts⟩ := new_errors_false herrors
    rw [new_of_parts hparts hd, validate, if_neg Bool.false_ne_true] at h
    split at h
    · cases h
    · rename_i clientTime hparse
      obtain ⟨hclock, hhash⟩ := (Bool.and_eq_true _ _).mp h
      exact ⟨username, timestamp, utcOffset, hash, trailing, clientTime, hd,
        ⟨hparts, hparse, eq_of_beq hhash⟩, of_decide_eq_true hclock⟩
  · rintro ⟨username, timestamp, utcOffset, hash, trailing, clientTime, hd, hsigned, hclock⟩
    have hhash := hsigned.hashed
    rw [new_of_parts hsigned.parts hd, validate, if_neg Bool.false_ne_true]
    simp only [hsigned.parsed, validateTimestamp, validateHashedPart, hhash, beq_self_eq_true,
      Bool.and_true]
    exact decide_eq_true hclock

theorem joined_zero :
    Joined digest username timestamp utcOffset hash 0 ↔
      digest = username ++ "|" ++ timestamp ++ "|" ++ utcOffset ++ "|" ++ hash := by
  unfold Joined
  rw [← String.toList_inj]
  simp [List.intercalate_cons_cons, List.intercalate_singleton]

/-- There is one way to read a digest. -/
theorem joined_unique {username' timestamp' utcOffset' hash' : String} {trailing' : Nat}
    (hd : Joined digest username timestamp utcOffset hash trailing)
    (hparts : ∀ part ∈ [username, timestamp, utcOffset] ++ [hash], IsPart part)
    (hd' : Joined digest username' timestamp' utcOffset' hash' trailing')
    (hparts' : ∀ part ∈ [username', timestamp', utcOffset'] ++ [hash'], IsPart part) :
    username = username' ∧ timestamp = timestamp' ∧ utcOffset = utcOffset' ∧ hash = hash' ∧
      trailing = trailing' := by
  have hsplit : Java.split '|' digest = [username, timestamp, utcOffset] ++ [hash] :=
    Java.split_join (hparts hash (by simp)).ne_empty (fun part hpart => (hparts part hpart).2) hd
  have hsplit' : Java.split '|' digest = [username', timestamp', utcOffset'] ++ [hash'] :=
    Java.split_join (hparts' hash' (by simp)).ne_empty (fun part hpart => (hparts' part hpart).2) hd'
  have heq := hsplit.symm.trans hsplit'
  simp only [List.cons_append, List.nil_append, List.cons.injEq, and_true] at heq
  obtain ⟨rfl, rfl, rfl, rfl⟩ := heq
  have hlength := congrArg List.length (hd.symm.trans hd')
  simp only [List.length_append, List.length_replicate] at hlength
  exact ⟨rfl, rfl, rfl, rfl, by omega⟩

end Accepted

/-! ## What has to be accepted -/

/-- The four parts and nothing else, not further from the server's time than the limit. -/
def ValidDigest (fmt : DigestFormat) (secret digest : String) (serverTime m : Int) : Prop :=
  ∃ username timestamp utcOffset hash clientTime,
    digest = username ++ "|" ++ timestamp ++ "|" ++ utcOffset ++ "|" ++ hash ∧
      Signed fmt secret username timestamp utcOffset hash clientTime ∧
      |serverTime - clientTime| ≤ 60000 * m

/-- The comparison of the clocks decides for a signed digest as the real time does, and against one
with separators behind its hash. -/
def JudgedByRealTime (fmt : DigestFormat) (zone : Int → Int) (secret digest : String)
    (serverTime m : Int) : Prop :=
  ∀ username timestamp utcOffset hash trailing clientTime,
    Joined digest username timestamp utcOffset hash trailing →
    Signed fmt secret username timestamp utcOffset hash clientTime →
    (OnClock zone serverTime clientTime m ↔
      trailing = 0 ∧ |serverTime - clientTime| ≤ 60000 * m)

theorem validate_conforms_iff :
    ((DigestValidator.new digest m).validate fmt zone serverTime secret = true ↔
        ValidDigest fmt secret digest serverTime m) ↔
      JudgedByRealTime fmt zone secret digest serverTime m := by
  rw [validate_iff]
  constructor
  · intro h username timestamp utcOffset hash trailing clientTime hd hsigned
    constructor
    · intro hclock
      obtain ⟨username', timestamp', utcOffset', hash', clientTime', hd', hsigned', hreal⟩ :=
        h.mp ⟨username, timestamp, utcOffset, hash, trailing, clientTime, hd, hsigned, hclock⟩
      obtain ⟨rfl, rfl, rfl, rfl, rfl⟩ :=
        joined_unique hd hsigned.parts (joined_zero.mpr hd') hsigned'.parts
      obtain rfl := Option.some.inj (hsigned.parsed.symm.trans hsigned'.parsed)
      exact ⟨rfl, hreal⟩
    · rintro ⟨rfl, hreal⟩
      obtain ⟨username', timestamp', utcOffset', hash', trailing', clientTime', hd', hsigned',
        hclock⟩ := h.mpr ⟨username, timestamp, utcOffset, hash, clientTime, joined_zero.mp hd,
          hsigned, hreal⟩
      obtain ⟨rfl, rfl, rfl, rfl, -⟩ := joined_unique hd hsigned.parts hd' hsigned'.parts
      obtain rfl := Option.some.inj (hsigned.parsed.symm.trans hsigned'.parsed)
      exact hclock
  · intro h
    constructor
    · rintro ⟨username, timestamp, utcOffset, hash, trailing, clientTime, hd, hsigned, hclock⟩
      obtain ⟨rfl, hreal⟩ :=
        (h username timestamp utcOffset hash trailing clientTime hd hsigned).mp hclock
      exact ⟨username, timestamp, utcOffset, hash, clientTime, joined_zero.mp hd, hsigned, hreal⟩
    · rintro ⟨username, timestamp, utcOffset, hash, clientTime, hd, hsigned, hreal⟩
      have hd := joined_zero.mpr hd
      exact ⟨username, timestamp, utcOffset, hash, 0, clientTime, hd, hsigned,
        (h username timestamp utcOffset hash 0 clientTime hd hsigned).mpr ⟨rfl, hreal⟩⟩

/-! ## Digests that are made by `getDigest` -/

/-- What the format and the hash function do for a digest of this instant. The format leaves out
the milliseconds. -/
structure Documented (fmt : DigestFormat) (username secret : String) (date : Int) : Prop where
  timestamp : IsPart (fmt.timestamp date)
  utcOffset : IsPart (fmt.utcOffset date)
  parsed : fmt.parse (fmt.timestamp date ++ "|" ++ fmt.utcOffset date) = some (date - date % 1000)
  hashed : IsPart (fmt.getMd5Digest
    (username ++ "|" ++ fmt.timestamp date ++ "|" ++ fmt.utcOffset date ++ "|" ++ secret))

theorem joined_getDigest :
    DigestUtil.getDigest fmt username secret date =
      username ++ "|" ++ fmt.timestamp date ++ "|" ++ fmt.utcOffset date ++ "|" ++
        fmt.getMd5Digest (username ++ "|" ++ fmt.timestamp date ++ "|" ++ fmt.utcOffset date ++
          "|" ++ secret) := by
  simp only [DigestUtil.getDigest, String.append_assoc]

/-- A separator in the user name makes more than four parts. -/
theorem username_of_joined {name timestamp utcOffset hash : String} {trailing : Nat}
    (hdoc : Documented fmt username secret date)
    (hd : Joined (DigestUtil.getDigest fmt username secret date) name timestamp utcOffset hash
      trailing)
    (hparts : ∀ part ∈ [name, timestamp, utcOffset] ++ [hash], IsPart part) : username = name := by
  have hread := Java.splitOn_join (by simp) (fun part hpart => (hparts part hpart).2) hd
  have hlist : (DigestUtil.getDigest fmt username secret date).toList =
      username.toList ++ '|' :: ((fmt.timestamp date).toList ++ '|' ::
        ((fmt.utcOffset date).toList ++ '|' :: (fmt.getMd5Digest (username ++ "|" ++
          fmt.timestamp date ++ "|" ++ fmt.utcOffset date ++ "|" ++ secret)).toList)) := by
    rw [joined_getDigest]
    simp
  rw [hlist, List.splitOn_append_cons_self, List.splitOn_append_cons_self,
    List.splitOn_append_cons_self, List.splitOn_eq_singleton hdoc.timestamp.2,
    List.splitOn_eq_singleton hdoc.utcOffset.2, List.splitOn_eq_singleton hdoc.hashed.2] at hread
  cases trailing with
  | zero =>
    have hfour : username.toList.splitOn '|' ++ [_, _, _] =
        [name.toList] ++ [timestamp.toList, utcOffset.toList, hash.toList] := hread
    have hfirst := (List.append_inj' hfour rfl).1
    have hname : ['|'].intercalate (username.toList.splitOn '|') = username.toList :=
      List.intercalate_splitOn '|'
    rw [hfirst, List.intercalate_singleton] at hname
    exact (String.toList_inj.mp hname).symm
  | succ k =>
    -- the hash is last on one side, an empty part on the other
    rw [List.replicate_succ'] at hread
    have hlast := congrArg List.getLast? hread
    simp only [← List.append_assoc, List.getLast?_concat] at hlast
    have hempty := String.toList_eq_nil_iff.mp (Option.some.inj hlast)
    exact absurd hempty hdoc.hashed.ne_empty

/-- The parts of a digest that is made by `getDigest`. -/
theorem Documented.parts (hdoc : Documented fmt username secret date) (husername : IsPart username) :
    ∀ part ∈ [username, fmt.timestamp date, fmt.utcOffset date] ++
      [fmt.getMd5Digest (username ++ "|" ++ fmt.timestamp date ++ "|" ++ fmt.utcOffset date ++
        "|" ++ secret)], IsPart part := by
  simp [husername, hdoc.timestamp, hdoc.utcOffset, hdoc.hashed]

theorem validate_getDigest (hdoc : Documented fmt username secret date) :
    (DigestValidator.new (DigestUtil.getDigest fmt username secret date) m).validate fmt zone
        serverTime secret = true ↔
      IsPart username ∧ OnClock zone serverTime (date - date % 1000) m := by
  rw [validate_iff]
  have hjoined : Joined (DigestUtil.getDigest fmt username secret date) username _ _ _ 0 :=
    joined_zero.mpr joined_getDigest
  constructor
  · rintro ⟨name, timestamp, utcOffset, hash, trailing, clientTime, hd, hsigned, hclock⟩
    obtain rfl := username_of_joined hdoc hd hsigned.parts
    have husername : IsPart username := hsigned.parts username (by simp)
    obtain ⟨-, rfl, rfl, -, -⟩ :=
      joined_unique hjoined (hdoc.parts husername) hd hsigned.parts
    obtain rfl := Option.some.inj (hdoc.parsed.symm.trans hsigned.parsed)
    exact ⟨husername, hclock⟩
  · rintro ⟨husername, hclock⟩
    exact ⟨username, _, _, _, 0, _, hjoined, ⟨hdoc.parts husername, hdoc.parsed, rfl⟩, hclock⟩

/-! ## Real time -/

/-- In a zone without changes, with a limit whose milliseconds fit, the clocks show the real time. -/
theorem judgedByRealTime_of_fixed_zone {offset : Int} (hzone : ∀ t, zone t = offset) (hm : 0 ≤ m)
    (hfits : m ≤ 35791) (hlast : digest.toList.getLast? ≠ some '|') :
    JudgedByRealTime fmt zone secret digest serverTime m := by
  intro username timestamp utcOffset hash trailing clientTime hd _
  have htrailing : trailing = 0 := by
    cases trailing with
    | zero => rfl
    | succ k =>
      rw [hd, List.replicate_succ', ← List.append_assoc, List.getLast?_concat] at hlast
      exact absurd rfl hlast
  have hwrap : Java.wrap (1000 * 60 * m) = 60000 * m := by
    rw [Java.wrap_of_range (by omega) (by unfold Java.maxInt; omega)]
    omega
  have hdiff : serverTime + offset - (clientTime + offset) = serverTime - clientTime := by omega
  unfold OnClock
  rw [hwrap, hzone, hzone, hdiff]
  exact ⟨fun h => ⟨htrailing, h⟩, And.right⟩

/-- Which digests are judged as they have to be: whatever is received, what `getDigest` makes when
it is checked at once, and what it has made more than `m` minutes ago. -/
theorem digest_conforms_iff (fmt : DigestFormat) (zone : Int → Int) (secret : String) (m : Int) :
    (∀ digest serverTime,
      ((DigestValidator.new digest m).validate fmt zone serverTime secret = true ↔
          ValidDigest fmt secret digest serverTime m) ↔
        JudgedByRealTime fmt zone secret digest serverTime m) ∧
    (∀ username date, Documented fmt username secret date →
      ((DigestValidator.new (DigestUtil.getDigest fmt username secret date) m).validate fmt zone
          date secret = true ↔
        IsPart username ∧ OnClock zone date (date - date % 1000) m)) ∧
    (∀ username date serverTime, Documented fmt username secret date →
      60000 * m < serverTime - date →
      ((DigestValidator.new (DigestUtil.getDigest fmt username secret date) m).validate fmt zone
          serverTime secret = false ↔
        ¬ (IsPart username ∧ OnClock zone serverTime (date - date % 1000) m))) := by
  refine ⟨fun digest serverTime => validate_conforms_iff, fun username date hdoc => ?_,
    fun username date serverTime hdoc _ => ?_⟩
  · exact validate_getDigest hdoc
  · rw [← validate_getDigest hdoc, Bool.not_eq_true]

/-! ## A change of the clock -/

/-- The format and the hash at one minute before a change to the winter time of the zone. -/
def octoberFormat : DigestFormat where
  timestamp := fun _ => "20161030025900"
  utcOffset := fun _ => "+02:00"
  parse := fun s => if s = "20161030025900|+02:00" then some 1477789140000 else none
  getMd5Digest := fun s =>
    if s = "admin|20161030025900|+02:00|secret" then "9E1AF172A19C3DC93CD36BCB2332295F"
    else "D41D8CD98F00B204E9800998ECF8427E"

def octoberZone (t : Int) : Int := if t < 1477789200000 then 7200000 else 3600000

theorem octoberFormat_documented : Documented octoberFormat "admin" "secret" 1477789140000 where
  timestamp := by unfold IsPart; decide +kernel
  utcOffset := by unfold IsPart; decide +kernel
  parsed := by decide +kernel
  hashed := by unfold IsPart; decide +kernel

theorem october_checked_at_once :
    (DigestValidator.new (DigestUtil.getDigest octoberFormat "admin" "secret" 1477789140000)
      3).validate octoberFormat octoberZone 1477789140000 "secret" = true :=
  ((digest_conforms_iff octoberFormat octoberZone "secret" 3).2.1 "admin" 1477789140000
    octoberFormat_documented).mpr ⟨by unfold IsPart; decide +kernel, by decide +kernel⟩

/-- After the change a digest is accepted that is an hour old. -/
theorem october_accepts_old_digest :
    (DigestValidator.new (DigestUtil.getDigest octoberFormat "admin" "secret" 1477789140000)
        3).validate octoberFormat octoberZone (1477789140000 + 3600000) "secret" = true ∧
      60000 * 3 < (1477789140000 + 3600000 : Int) - 1477789140000 := by
  decide +kernel

end Login
end AppNG
