/-! The version that the program reports. -/
namespace Reckon

def version : String := "0.1.0"

end Reckon
