import Kryptik.Calendar
import Kryptik.Desktop.MoveWhole
import Kryptik.Desktop.ScreenLock
import Kryptik.Efi.OwnEntries
import Kryptik.Kryptikd.Broker
import Kryptik.Kryptikd.CameraHeld
import Kryptik.Kryptikd.Files
import Kryptik.Kryptikd.FixedFilters
import Kryptik.Kryptikd.NeedsMet
import Kryptik.Kryptikd.Netlink
import Kryptik.Kryptikd.Password
import Kryptik.Kryptikd.RegistrySafe
import Kryptik.Kryptikd.Serve
import Kryptik.Kryptikd.SuspendSafe
import Kryptik.Kryptikd.TimeBound
import Kryptik.Kryptikd.UpdateAgree
import Kryptik.Kryptikd.UpdateAnnounced
import Kryptik.Kryptikd.Version
import Kryptik.Net.RoutedSound
import Kryptik.Services.Power
import Kryptik.Sound.Microphone
import Kryptik.Wlproxy.AgreementRun
import Kryptik.Wlproxy.AllowlistRun
import Kryptik.Wlproxy.Budget
import Kryptik.Wlproxy.CommitRun
import Kryptik.Wlproxy.Ownership
import Kryptik.Zoneid.Audited
