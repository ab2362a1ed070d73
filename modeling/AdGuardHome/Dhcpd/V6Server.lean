import AdGuardHome.Dhcpd.V4Server

/-!
# The DHCPv6 server

The lease operations of `v6_unix.go`.  The server keeps a list of leases and a table with a flag for each value of
the last byte of an address; it looks for a free address among those that begin like `ipStart`.  Every call brings
records of its own, so leases are values.
-/

namespace AdGuardHome.Dhcpd

open AdGuardHome.Net AdGuardHome.Lib AdGuardHome.Dhcp

/-- The seconds of an instant since January 1, 1970: `Time.Unix`. -/
def unix (t : Time) : Int := t / 1000000000 - 62135596800

/-- The last byte of the 16-byte form. -/
def lastByte (ip : Addr) : Fin 256 := Fin.ofNat 256 ip.as16

/-- The part of `V6ServerConf` that the lease operations read: the sixteen bytes of `ipStart`. -/
structure V6ServerConf where
  ipStart : BitVec 128

namespace V6ServerConf

/-- `ipStart[15]` -/
def first (conf : V6ServerConf) : Fin 256 := lastByte (.v6 conf.ipStart "")

/-- `ipStart` with another last byte. -/
def withLast (conf : V6ServerConf) (b : Fin 256) : Addr :=
  .v6 (BitVec.ofNat 128 (conf.ipStart.toNat / 256 * 256 + b)) ""

end V6ServerConf

/-- `ip6InRange`; `none` is the panic on an address of less than fifteen bytes. -/
def ip6InRange (conf : V6ServerConf) : Addr → Option Bool
  | .v6 a z => some (conf.ipStart.toNat / 256 == a.toNat / 256 && decide (conf.first ≤ lastByte (.v6 a z)))
  | _ => none

/-- `v6Server`, without the configuration. -/
structure V6Server where
  leases : List Lease
  ipAddrs : Fin 256 → Bool

namespace V6Server

variable (conf : V6ServerConf)

/-- A server that has just been created. -/
def empty : V6Server := ⟨[], fun _ => false⟩

/-! ## The list and the table -/

/-- Adds a lease. -/
def addLease (s : V6Server) (l : Lease) : V6Server :=
  { leases := s.leases ++ [l], ipAddrs := Function.update s.ipAddrs (lastByte l.ip) true }

/-- Removes a lease by its index; the last one takes its place. -/
def leaseRemoveSwapByIndex (s : V6Server) (i : ℕ) : V6Server :=
  match s.leases[i]?, s.leases.getLast? with
  | some l, some last =>
    { leases := (s.leases.set i last).dropLast, ipAddrs := Function.update s.ipAddrs (lastByte l.ip) false }
  | _, _ => s

/-- The loop of `ResetLeases`. -/
def resetLoop : List Lease → V6Server → V6Server × Except Err Unit
  | [], s => (s, .ok ())
  | l :: ls, s =>
    if l.isStatic then resetLoop ls (s.addLease l)
    else match ip6InRange conf l.ip with
      | none => (s, .error .fault)
      | some false => resetLoop ls s
      | some true => resetLoop ls (s.addLease l)

/-- `ResetLeases`.  The table stays. -/
def resetLeases (s : V6Server) (leases : List Lease) : V6Server × Except Err Unit :=
  resetLoop conf leases { s with leases := [] }

/-! ## Static leases -/

/-- The loop of `rmDynamicLease`; the first number is that of the turns left. -/
def rmDynamicLoop (lease : Lease) : ℕ → ℕ → V6Server → V6Server × Except Err Unit
  | 0, _, s => (s, .ok ())
  | k + 1, i, s =>
    -- the second half of the body, on the lease that is at `i` then
    let checkIP (s : V6Server) (l : Lease) : V6Server × Except Err Unit :=
      if l.ip = lease.ip then
        if l.isStatic then (s, .error .staticLeaseExists)
        else rmDynamicLoop lease k (i + 1) (s.leaseRemoveSwapByIndex i)
      else rmDynamicLoop lease k (i + 1) s
    match s.leases[i]? with
    | none => (s, .ok ())
    | some l =>
      if l.hwAddr = lease.hwAddr then
        if l.isStatic then (s, .error .staticLeaseExists)
        else
          let s' := s.leaseRemoveSwapByIndex i
          match s'.leases[i]? with
          | none => (s', .ok ())
          | some l' => checkIP s' l'
      else checkIP s l

/-- Removes the dynamic leases with the same properties, an error if a static one is found. -/
def rmDynamicLease (s : V6Server) (lease : Lease) : V6Server × Except Err Unit :=
  rmDynamicLoop lease s.leases.length 0 s

/-- Removes a lease with the same properties. -/
def rmLease (s : V6Server) (lease : Lease) : V6Server × Except Err Unit :=
  match s.leases.findIdx? fun l => l.ip == lease.ip with
  | none => (s, .error .leaseNotFound)
  | some i =>
    match s.leases[i]? with
    | none => (s, .error .leaseNotFound)
    | some l =>
      if l.hwAddr ≠ lease.hwAddr ∨ l.hostname ≠ lease.hostname then (s, .error .leaseNotFound)
      else (s.leaseRemoveSwapByIndex i, .ok ())

/-- Finds a lease by its hardware address. -/
def findLease (s : V6Server) (mac : HardwareAddr) : Option Lease := s.leases.find? fun l => mac == l.hwAddr

/-- The check of the argument in `AddStaticLease` and `RemoveStaticLease`. -/
def validateLease (l : Lease) : Except Err Unit :=
  if l.ip.is6 = false then .error .invalidIP
  else if validateMAC l.hwAddr = false then .error .invalidMAC
  else .ok ()

/-- `AddStaticLease`. -/
def addStaticLease (s : V6Server) (l : Lease) : V6Server × Except Err Unit :=
  match validateLease l with
  | .error e => (s, .error e)
  | .ok () =>
    let l := { l with isStatic := true }
    match s.rmDynamicLease l with
    | (s', .error e) => (s', .error e)
    | (s', .ok ()) => (s'.addLease l, .ok ())

/-- `UpdateStaticLease`. -/
def updateStaticLease (s : V6Server) (l : Lease) : V6Server × Except Err Unit :=
  match s.findLease l.hwAddr with
  | none => (s, .error .leaseNotFound)
  | some found =>
    match s.rmLease found with
    | (s', .error e) => (s', .error e)
    | (s', .ok ()) => (s'.addLease l, .ok ())

/-- `RemoveStaticLease`. -/
def removeStaticLease (s : V6Server) (l : Lease) : V6Server × Except Err Unit :=
  match validateLease l with
  | .error e => (s, .error e)
  | .ok () => s.rmLease l

/-! ## Reservation -/

/-- Finds an expired lease and returns its index. -/
def findExpiredLease (s : V6Server) (now : Time) : Option ℕ :=
  s.leases.findIdx? fun l => !l.isStatic && decide (unix l.expiry ≤ unix now)

/-- Next free address. -/
def findFreeIP (s : V6Server) : Option Addr :=
  (((List.finRange 256).filter fun b => decide (conf.first ≤ b)).find? fun b => !s.ipAddrs b).map conf.withLast

/-- Reserves a lease for a hardware address: a new one on a free address, else an expired one, over whose hardware
address the new one is copied. -/
def reserveLease (s : V6Server) (mac : HardwareAddr) (now : Time) : V6Server × Option Lease :=
  match s.findFreeIP conf with
  | some ip =>
    let l := { (default : Lease) with ip := ip, hwAddr := mac }
    (s.addLease l, some l)
  | none =>
    match s.findExpiredLease now with
    | none => (s, none)
    | some i =>
      match s.leases[i]? with
      | none => (s, none)
      | some l =>
        let l := { l with hwAddr := V4Server.copyBytes l.hwAddr mac }
        ({ s with leases := s.leases.set i l }, some l)

/-! ## Runs -/

/-- An operation, with the reading of the clock. -/
inductive Op
  | resetLeases (leases : List Lease)
  | addStaticLease (l : Lease)
  | updateStaticLease (l : Lease)
  | removeStaticLease (l : Lease)
  | reserveLease (mac : HardwareAddr) (now : Time)

/-- The state after an operation; one that fails may have changed it. -/
def step (s : V6Server) : Op → V6Server
  | .resetLeases leases => (s.resetLeases conf leases).1
  | .addStaticLease l => (s.addStaticLease l).1
  | .updateStaticLease l => (s.updateStaticLease l).1
  | .removeStaticLease l => (s.removeStaticLease l).1
  | .reserveLease mac now => (s.reserveLease conf mac now).1

end V6Server

end AdGuardHome.Dhcpd
