import AdGuardHome.Lib.Utf8
import AdGuardHome.Net.Netip

/-!
# Leases

`dhcpsvc.Lease`, the record that both DHCP servers keep.  Times are instants on an integer scale on
which `0` is the zero value of `time.Time`.  The hostnames of one server are texts, which it has made or checked; those
of the other one are what clients send, which can be any bytes.
-/

namespace AdGuardHome.Dhcp

open AdGuardHome.Lib AdGuardHome.Net

/-- An instant. -/
abbrev Time := Int

/-- `dhcpsvc.Lease`, with its kind of hostnames. -/
@[ext] structure Lease (Name : Type) where
  ip : Addr
  expiry : Time
  hostname : Name
  hwAddr : HardwareAddr
  isStatic : Bool
deriving DecidableEq

/-- The zero value of the struct. -/
instance {Name : Type} [Inhabited Name] : Inhabited (Lease Name) := ⟨⟨.invalid, 0, default, [], false⟩⟩

/-- `netutil.ValidateMAC`, which checks the length only. -/
def validateMAC (mac : HardwareAddr) : Bool := validMACLen mac.length

end AdGuardHome.Dhcp

/-- A lease with a hostname that has been checked. -/
abbrev AdGuardHome.Dhcpd.Lease := AdGuardHome.Dhcp.Lease String

/-- A lease with a hostname that a client has sent. -/
abbrev AdGuardHome.Dhcpsvc.Lease := AdGuardHome.Dhcp.Lease AdGuardHome.Lib.GoString
