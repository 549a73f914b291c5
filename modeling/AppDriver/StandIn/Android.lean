import AppDriver.StandIn.Recipe

/-!
The recipes and system services of Android that are known from the start. They have no side effects:
a context is a wrapper around a null base, a data holder is empty, and services come from their own
static methods.
-/

namespace AppDriver.FrameworkCatalog

private def constructed (t : String) (params : List ParamSource) : TypeName × Recipe :=
  (⟨t⟩, .constructor params)

private def factory (t owner method : String) (params : List ParamSource) : TypeName × Recipe :=
  (⟨t⟩, .staticFactory ⟨owner⟩ method params)

def androidRecipes : List (TypeName × Recipe) :=
  [(TypeName.context, .substitute ⟨"android.content.ContextWrapper"⟩),
   constructed "android.content.ContextWrapper" [.degenerate TypeName.context],
   constructed "android.view.View" [.context],
   constructed "android.view.SurfaceView" [.context],
   constructed "android.view.TextureView" [.context],
   (⟨"android.view.ViewGroup"⟩, .substitute ⟨"android.widget.LinearLayout"⟩),
   factory "android.view.LayoutInflater" "android.view.LayoutInflater" "from" [.context],
   (⟨"android.os.Bundle"⟩, .staticField ⟨"android.os.Bundle"⟩ "EMPTY"),
   (⟨"android.net.Uri"⟩, .staticField ⟨"android.net.Uri"⟩ "EMPTY"),
   constructed "android.content.Intent" [],
   constructed "android.content.ContentValues" [],
   constructed "android.content.res.Configuration" [],
   constructed "android.location.Location" [.value ⟨"java.lang.String"⟩],
   constructed "android.os.Handler" [],
   factory "android.os.Looper" "android.os.Looper" "getMainLooper" [],
   constructed "java.lang.Object" [],
   factory "android.hardware.Camera" "android.hardware.Camera" "open" [],
   factory "android.accounts.AccountManager" "android.accounts.AccountManager" "get" [.context],
   factory "android.telephony.SmsManager" "android.telephony.SmsManager" "getDefault" [],
   factory "android.telephony.gsm.SmsManager" "android.telephony.gsm.SmsManager" "getDefault" [],
   factory "android.content.SharedPreferences" "android.preference.PreferenceManager"
     "getDefaultSharedPreferences" [.context],
   (⟨"android.graphics.Bitmap"⟩, .unfabricable),
   (⟨"android.hardware.Sensor"⟩, .unfabricable),
   (⟨"android.hardware.SensorEvent"⟩, .unfabricable)]

def androidServices : List (String × TypeName) :=
  [("account", ⟨"android.accounts.AccountManager"⟩),
   ("activity", ⟨"android.app.ActivityManager"⟩),
   ("alarm", ⟨"android.app.AlarmManager"⟩),
   ("audio", ⟨"android.media.AudioManager"⟩),
   ("clipboard", ⟨"android.content.ClipboardManager"⟩),
   ("connectivity", ⟨"android.net.ConnectivityManager"⟩),
   ("keyguard", ⟨"android.app.KeyguardManager"⟩),
   ("layout_inflater", ⟨"android.view.LayoutInflater"⟩),
   ("location", ⟨"android.location.LocationManager"⟩),
   ("notification", ⟨"android.app.NotificationManager"⟩),
   ("phone", ⟨"android.telephony.TelephonyManager"⟩),
   ("power", ⟨"android.os.PowerManager"⟩),
   ("sensor", ⟨"android.hardware.SensorManager"⟩),
   ("vibrator", ⟨"android.os.Vibrator"⟩),
   ("wifi", ⟨"android.net.wifi.WifiManager"⟩),
   ("window", ⟨"android.view.WindowManager"⟩)]

/-- The catalog of Android. -/
def android : FrameworkCatalog := ⟨androidRecipes, androidServices⟩

end AppDriver.FrameworkCatalog
